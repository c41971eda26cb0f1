import Autolean.ControlPlane.SigningLedger
import Autolean.ControlPlane.Verdicts

/-! Every interleaving of signing calls, with other clients of the stores beside them and
calls that stop anywhere: the signer is asked once, rows are final, and answers agree. -/
namespace Autolean.ControlPlane
open Contracts Machine Raising VerifierSigningGateway

/-- A client: a call of `issue`, or one operation on the stores the gateway reads. -/
inductive GatewayClient (gw : VerifierSigningGateway) where
  | issue (request : gw.Request)
  | operate (op : ServiceOp)

namespace GatewayClient
variable {gw : VerifierSigningGateway}

def program : GatewayClient gw → GatewayCall gw (Option Attestation)
  | issue request => do let attestation ← gw.issue request; pure (some attestation)
  | operate op => do let _ ← perform (.service op); pure none

def request : GatewayClient gw → Option gw.Request
  | issue request => some request
  | operate _ => none

/-- What a client that ended has done at a request ID. -/
def Ends (client : GatewayClient gw) (x : String) (r : Except GatewayError (Option Attestation))
    (q : SigningPhase gw) : Prop :=
  ∀ request attestation, client.request = some request → request.requestId.value = x → r = .ok (some attestation) →
    gw.validateIssuedAttestation request attestation = .ok () ∧
      (q = .held request (.issued attestation) ∨ q = .replaying request attestation)

theorem follows_program (client : GatewayClient gw) (x : String) :
    client.program.Follows (signingDiscipline gw x) .idle (client.Ends x) := by
  cases client with
  | operate op =>
    have hsilent : (program (.operate op) : GatewayCall gw _).Issues Silent :=
      .bind (silent_perform rfl) fun _ => .pure _
    apply (Prog.Follows.passing (passing_of_silent x .idle hsilent)).mono
    intro r q hq request attestation hrequest
    cases hrequest
  | issue request =>
    by_cases hx : request.requestId.value = x
    · apply Prog.Follows.bind (Ended request) (follows_issue hx)
      · rintro attestation q hended _ _ ⟨rfl⟩ - ⟨rfl⟩
        exact hended attestation rfl
      · rintro e q - _ _ - - hr
        cases hr
    · apply Prog.Follows.bind (fun _ _ => True) ((follows_elsewhere hx).mono fun _ _ _ => trivial)
      · rintro attestation q - _ _ ⟨rfl⟩ hid
        exact absurd hid hx
      · rintro e q - _ _ - - hr
        cases hr

/-- A client issues operations on the ledger for its own request only. -/
theorem program_about (client : GatewayClient gw) :
    client.program.Issues fun op : GatewayOp gw => op.ledgerRequest = none ∨ op.ledgerRequest = client.request := by
  cases client with
  | operate op => exact .bind (Prog.Issues.perform (I := gatewayInterface gw) (.inl rfl)) fun _ => .pure _
  | issue request => exact .bind (about_issue.imp fun _ h => h) fun _ => .pure _

end GatewayClient

/-! Runs -/

abbrev GatewayPool (gw : VerifierSigningGateway) (θ : Type) :=
  Pool (gatewayInterface gw) GatewayError GatewayWorld θ (Option Attestation)

/-- The stores, and the calls about to run. -/
def GatewayPool.start {gw : VerifierSigningGateway} {θ : Type} (w : GatewayWorld) (clients : θ → GatewayClient gw) :
    GatewayPool gw θ := ⟨w, fun i => (clients i).program⟩

section Runs
variable (gw : VerifierSigningGateway) {θ : Type} (w : GatewayWorld)

theorem linked_start : gw.Linked w.requests (fun (_ : θ) (_ : String) => SigningPhase.idle) w.requests :=
  ⟨fun h => (by cases h), fun h => (by cases h), fun _ hrow => .inl hrow, fun _ hrow => hrow, fun h => (by cases h)⟩

variable [DecidableEq θ] (clients : θ → GatewayClient gw) (labels : List (θ × GatewayInput))

def signingRun : GatewayPool gw θ := run (Pool.step gw.exec) (GatewayPool.start w clients) labels

/-- What was issued in the run, and how it was answered. -/
def signingTrace : List (Event (gatewayInterface gw) GatewayError θ) :=
  (GatewayPool.start w clients).trace gw.exec labels

/-- Every reachable ledger is linked to the phases of the calls. -/
theorem signing_guided : ∃ phases, (signingRun gw w clients labels).Guided (signingDiscipline gw) .idle
    (gw.Linked w.requests · ·.requests) (fun i x => (clients i).Ends x) (signingTrace gw w clients labels) phases := by
  have hstart : (GatewayPool.start w clients).Guided (signingDiscipline gw) .idle (gw.Linked w.requests · ·.requests)
      (fun i x => (clients i).Ends x) [] fun _ _ => SigningPhase.idle :=
    ⟨fun i x => (clients i).follows_program x, fun _ _ => .nil _, linked_start gw w⟩
  obtain ⟨phases, h⟩ := hstart.run (fun _ _ _ op input _ hlinked hstep => hlinked.step op input hstep) labels
  exact ⟨phases, h⟩

end Runs

/-! The trail of a reservation -/

section Trails
variable {gw : VerifierSigningGateway} {θ : Type}

abbrev SigningEvent (gw : VerifierSigningGateway) (θ : Type) := Event (gatewayInterface gw) GatewayError θ

def reserveEvent (i : θ) (request : gw.Request) (receipt : IndependentExecutionReceipt) (now : Instant) :
    SigningEvent gw θ :=
  ⟨i, .reserveRequest request receipt now, .ok none⟩

def signEvent (i : θ) (request : gw.Request) (ttlSeconds : ℚ) (answer : GatewayRaises Attestation) :
    SigningEvent gw θ :=
  ⟨i, .sign request ttlSeconds, answer⟩

def verifyEvent (i : θ) (request : gw.Request) (attestation : Attestation) : SigningEvent gw θ :=
  ⟨i, .verifySignature request attestation, .ok ()⟩

/-- The lease of the request's bundle is read. -/
def leaseEvent (i : θ) (request : gw.Request) (current : Lease) : SigningEvent gw θ :=
  ⟨i, .service (.store (.currentLease request.context.bundleId.value)), .ok (some current)⟩

def recordEvent (i : θ) (request : gw.Request) (attestation : Attestation) : SigningEvent gw θ :=
  ⟨i, .recordIssued request attestation, .ok ()⟩

/-- What the call's own history holds of a reservation, in this order. -/
def Trail (i : θ) (events : List (SigningEvent gw θ)) (request : gw.Request) : SigningProgress → Prop
  | .reserved | .failed => ∃ receipt now, [reserveEvent i request receipt now].Sublist events
  | .signed answer => ∃ receipt now ttlSeconds,
    [reserveEvent i request receipt now, signEvent i request ttlSeconds answer].Sublist events
  | .verified attestation => ∃ receipt now ttlSeconds, [reserveEvent i request receipt now,
      signEvent i request ttlSeconds (.ok attestation), verifyEvent i request attestation].Sublist events
  | .confirmed attestation => ∃ receipt now ttlSeconds current, gw.NamesLease request current ∧
    request.expiresAt.instant ≤ current.expiresAt.instant ∧ [reserveEvent i request receipt now,
      signEvent i request ttlSeconds (.ok attestation), verifyEvent i request attestation,
      leaseEvent i request current].Sublist events
  | .issued attestation => ∃ receipt now ttlSeconds current, gw.NamesLease request current ∧
    request.expiresAt.instant ≤ current.expiresAt.instant ∧ [reserveEvent i request receipt now,
      signEvent i request ttlSeconds (.ok attestation), verifyEvent i request attestation,
      leaseEvent i request current, recordEvent i request attestation].Sublist events

variable {i : θ} {events : List (SigningEvent gw θ)} {request : gw.Request} {progress : SigningProgress}

/-- Every trail begins with the reservation. -/
theorem Trail.reserved (h : Trail i events request progress) :
    ∃ receipt now, [reserveEvent i request receipt now].Sublist events := by
  cases progress with
  | reserved | failed => exact h
  | signed answer =>
    obtain ⟨receipt, now, ttlSeconds, h⟩ := h
    exact ⟨receipt, now, (List.sublist_append_left _ [_]).trans h⟩
  | verified attestation =>
    obtain ⟨receipt, now, ttlSeconds, h⟩ := h
    exact ⟨receipt, now, (List.sublist_append_left _ [_, _]).trans h⟩
  | confirmed attestation =>
    obtain ⟨receipt, now, ttlSeconds, current, -, -, h⟩ := h
    exact ⟨receipt, now, (List.sublist_append_left _ [_, _, _]).trans h⟩
  | issued attestation =>
    obtain ⟨receipt, now, ttlSeconds, current, -, -, h⟩ := h
    exact ⟨receipt, now, (List.sublist_append_left _ [_, _, _, _]).trans h⟩

theorem Trail.mono {events' : List (SigningEvent gw θ)} (h : Trail i events request progress)
    (hmore : events.Sublist events') : Trail i events' request progress := by
  cases progress with
  | reserved | failed =>
    obtain ⟨receipt, now, h⟩ := h
    exact ⟨receipt, now, h.trans hmore⟩
  | signed answer =>
    obtain ⟨receipt, now, ttlSeconds, h⟩ := h
    exact ⟨receipt, now, ttlSeconds, h.trans hmore⟩
  | verified attestation =>
    obtain ⟨receipt, now, ttlSeconds, h⟩ := h
    exact ⟨receipt, now, ttlSeconds, h.trans hmore⟩
  | confirmed attestation =>
    obtain ⟨receipt, now, ttlSeconds, current, hlease, hlive, h⟩ := h
    exact ⟨receipt, now, ttlSeconds, current, hlease, hlive, h.trans hmore⟩
  | issued attestation =>
    obtain ⟨receipt, now, ttlSeconds, current, hlease, hlive, h⟩ := h
    exact ⟨receipt, now, ttlSeconds, current, hlease, hlive, h.trans hmore⟩

/-- The trail of a phase. -/
def PhaseTrail (i : θ) (events : List (SigningEvent gw θ)) : SigningPhase gw → Prop
  | .held request progress => Trail i events request progress
  | .idle | .replaying .. => True

theorem PhaseTrail.mono {events' : List (SigningEvent gw θ)} {q : SigningPhase gw} (h : PhaseTrail i events q)
    (hmore : events.Sublist events') : PhaseTrail i events' q := by
  cases q with
  | held request progress => exact Trail.mono h hmore
  | idle | replaying => trivial

/-- A permitted step extends the trail. -/
theorem PhaseTrail.step {x : String} {q q' : SigningPhase gw} {op : GatewayOp gw} {r : Except GatewayError op.Res}
    (h : PhaseTrail i events q) (hstep : SigningStep gw x q op r q') : PhaseTrail i (events ++ [⟨i, op, r⟩]) q' := by
  cases hstep with
  | other | unrecorded | unmarked => exact h.mono (List.sublist_append_left ..)
  | absent | loaded | refused | found => trivial
  | reserved hid => exact ⟨_, _, List.sublist_append_right ..⟩
  | signed hid =>
    obtain ⟨receipt, now, h⟩ := h
    exact ⟨receipt, now, _, h.append (.refl [_])⟩
  | verified =>
    obtain ⟨receipt, now, ttlSeconds, h⟩ := h
    exact ⟨receipt, now, ttlSeconds, h.append (.refl [_])⟩
  | confirmed hlease hlive =>
    obtain ⟨receipt, now, ttlSeconds, h⟩ := h
    exact ⟨receipt, now, ttlSeconds, _, hlease, hlive, h.append (.refl [_])⟩
  | recorded hid hvalid =>
    obtain ⟨receipt, now, ttlSeconds, current, hlease, hlive, h⟩ := h
    exact ⟨receipt, now, ttlSeconds, current, hlease, hlive, h.append (.refl [_])⟩
  | marked hid hopen =>
    obtain ⟨receipt, now, h⟩ := Trail.reserved h
    exact ⟨receipt, now, h.trans (List.sublist_append_left ..)⟩

/-- The phase a call's own history led to has its trail in that history. -/
theorem phaseTrail_of_walk {x : String} {q q' : SigningPhase gw} {trace : List (SigningEvent gw θ)}
    (h : (signingDiscipline gw x).Walk q trace q') (hown : ∀ e ∈ trace, e.thread = i) (hq : PhaseTrail i events q) :
    PhaseTrail i (events ++ trace) q' := by
  induction h generalizing events with
  | nil q => simpa using hq
  | cons step rest ih =>
    obtain ⟨rfl, hrest⟩ := List.forall_mem_cons.mp hown
    rw [List.append_cons]
    exact ih hrest (hq.step step)

/-! The signer -/

/-- The signer was asked for the request. -/
def Signed (request : gw.Request) (q : SigningPhase gw) : Prop :=
  ∃ progress, q = .held request progress ∧ progress ≠ .reserved

theorem Signed.step {x : String} {q q' : SigningPhase gw} {op : GatewayOp gw} {r : Except GatewayError op.Res}
    (h : Signed request q) (hstep : SigningStep gw x q op r q') : Signed request q' := by
  obtain ⟨progress, rfl, hprogress⟩ := h
  cases hstep with
  | other | unrecorded | unmarked => exact ⟨_, rfl, hprogress⟩
  | signed => exact absurd rfl hprogress
  | verified | confirmed | recorded | marked => exact ⟨_, rfl, by simp⟩

/-- The request the signer is asked to sign for. -/
def GatewayOp.signing {gw : VerifierSigningGateway} : GatewayOp gw → Option gw.Request
  | .sign request _ => some request
  | _ => none

theorem signed_of_signing {q q' : SigningPhase gw} {op : GatewayOp gw} {r : Except GatewayError op.Res}
    (h : op.signing = some request) (hstep : SigningStep gw request.requestId.value q op r q') :
    q = .held request .reserved ∧ Signed request q' := by
  cases op with
  | sign request' ttlSeconds =>
    cases h
    obtain ⟨hq, hq'⟩ := step_sign hstep
    exact ⟨hq, _, hq', by simp⟩
  | _ => cases h

theorem signed_of_walk {q q' : SigningPhase gw} {trace : List (SigningEvent gw θ)}
    (h : (signingDiscipline gw request.requestId.value).Walk q trace q')
    (hsigned : Signed request q ∨ ∃ e ∈ trace, e.op.signing = some request) : Signed request q' := by
  induction h with
  | nil q =>
    rcases hsigned with hq | ⟨e, he, -⟩
    · exact hq
    · cases he
  | cons step rest ih =>
    apply ih
    rcases hsigned with hq | ⟨e, he, hsign⟩
    · exact .inl (hq.step step)
    · rcases List.mem_cons.mp he with rfl | he
      · exact .inl (signed_of_signing hsign step).2
      · exact .inr ⟨e, he, hsign⟩

end Trails

/-- Two requests agree in their ID, nonce, idempotency key or canonical payload. -/
def VerificationSigningRequest.Overlaps {svc : Service} (r r' : VerificationSigningRequest svc) : Prop :=
  r.requestId = r'.requestId ∨ r.requestNonce = r'.requestNonce ∨ r.idempotencyKey = r'.idempotencyKey ∨
    r.payload = r'.payload

section Results
variable (gw : VerifierSigningGateway) {θ : Type} [DecidableEq θ] (w : GatewayWorld) (clients : θ → GatewayClient gw)
  (labels : List (θ × GatewayInput))

theorem RowOf.clashes {request request' : gw.Request} {row row' : SigningRow} (h : gw.RowOf request row)
    (h' : gw.RowOf request' row') (ho : request.Overlaps request') : row.Clashes row' := by
  obtain ⟨columns, now, hrow⟩ := h
  obtain ⟨columns', now', hrow'⟩ := h'
  have hid : row.requestId = request.requestId.value := (congrArg SigningRow.requestId hrow :)
  have hid' : row'.requestId = request'.requestId.value := (congrArg SigningRow.requestId hrow' :)
  have hnonce : row.requestNonce = request.requestNonce := (congrArg SigningRow.requestNonce hrow :)
  have hnonce' : row'.requestNonce = request'.requestNonce := (congrArg SigningRow.requestNonce hrow' :)
  have hkey : row.idempotencyKey = request.idempotencyKey := (congrArg SigningRow.idempotencyKey hrow :)
  have hkey' : row'.idempotencyKey = request'.idempotencyKey := (congrArg SigningRow.idempotencyKey hrow' :)
  have hpayload : row.canonicalPayloadHash = request.canonicalPayloadHash.value :=
    (congrArg SigningRow.canonicalPayloadHash hrow :)
  have hpayload' : row'.canonicalPayloadHash = request'.canonicalPayloadHash.value :=
    (congrArg SigningRow.canonicalPayloadHash hrow' :)
  unfold SigningRow.Clashes
  rw [hid, hid', hnonce, hnonce', hkey, hkey', hpayload, hpayload', request.payload_bound, request'.payload_bound]
  rcases ho with h | h | h | h
  · exact .inl (congrArg _ h)
  · exact .inr (.inl h)
  · exact .inr (.inr (.inl h))
  · refine .inr (.inr (.inr (congrArg (fun p => (gw.control.hashing.attestationPayloadHash .verification p).value) ?_)))
    exact h

/-- The requests the signer was asked for, oldest first. -/
def signings (trace : List (SigningEvent gw θ)) : List gw.Request := trace.filterMap fun e => e.op.signing

/-- A call about to ask the signer holds the pending row of its request. -/
def SignsPending (pool : GatewayPool gw θ) : Prop :=
  ∀ i op k request, pool.threads i = .call op k → op.signing = some request →
    ∃ row ∈ pool.state.requests.rows, gw.RowOf request row ∧ row.state = .pending ∧ row.attestationJson = none

variable {gw w clients labels}

abbrev SigningGuided (gw : VerifierSigningGateway) (w : GatewayWorld) (clients : θ → GatewayClient gw)
    (pool : GatewayPool gw θ) (trace : List (SigningEvent gw θ)) (phases : θ → String → SigningPhase gw) : Prop :=
  pool.Guided (signingDiscipline gw) .idle (gw.Linked w.requests · ·.requests)
    (fun i x => (clients i).Ends x) trace phases

/-- A call about to ask the signer stands at its reservation. -/
theorem reserved_of_asking {pool : GatewayPool gw θ} {trace : List (SigningEvent gw θ)}
    {phases : θ → String → SigningPhase gw} (h : SigningGuided gw w clients pool trace phases) {i : θ}
    {op : GatewayOp gw} {k : Except GatewayError op.Res → GatewayCall gw (Option Attestation)}
    (hcall : pool.threads i = .call op k)
    {request : gw.Request} (hsign : op.signing = some request) :
    phases i request.requestId.value = .held request .reserved := by
  have hfollows := h.follows i request.requestId.value
  rw [hcall] at hfollows
  obtain ⟨q', hstep, -⟩ := hfollows (.error (.foreign true))
  exact (signed_of_signing hsign hstep).1

/-- What the signer was asked for before is past its reservation. -/
theorem signed_of_asked {pool : GatewayPool gw θ} {trace : List (SigningEvent gw θ)}
    {phases : θ → String → SigningPhase gw} (h : SigningGuided gw w clients pool trace phases)
    {e : SigningEvent gw θ} (he : e ∈ trace) {request : gw.Request} (hsign : e.op.signing = some request) :
    Signed request (phases e.thread request.requestId.value) :=
  signed_of_walk (h.walks e.thread request.requestId.value) (.inr ⟨e, List.mem_filter.mpr ⟨he, by simp⟩, hsign⟩)

/-- A reservation the signer was asked for overlaps with none it is about to be asked for. -/
theorem not_overlaps_of_asked {pool : GatewayPool gw θ} {trace : List (SigningEvent gw θ)}
    {phases : θ → String → SigningPhase gw} (h : SigningGuided gw w clients pool trace phases) {e : SigningEvent gw θ}
    (he : e ∈ trace) {request request' : gw.Request} (hsign : e.op.signing = some request) {i : θ}
    (hreserved : phases i request'.requestId.value = .held request' .reserved) : ¬ request.Overlaps request' := by
  intro ho
  obtain ⟨progress, hheld, hprogress⟩ := signed_of_asked h he hsign
  obtain ⟨-, -, row, hrow, hof, -⟩ := h.related.held hheld
  obtain ⟨-, -, row', hrow', hof', -⟩ := h.related.held hreserved
  have heq : row = row' := SigningTable.eq_of_clashes hrow hrow' (RowOf.clashes gw hof hof' ho)
  have hid : request.requestId.value = request'.requestId.value := by
    rw [← hof.requestId, ← hof'.requestId, heq]
  rw [hid] at hheld
  have hthread := h.related.sole hheld hreserved
  rw [hthread, hreserved] at hheld
  cases hheld
  exact hprogress rfl

theorem signings_pairwise (labels : List (θ × GatewayInput)) :
    (signings gw (signingTrace gw w clients labels)).Pairwise fun r r' => ¬ r.Overlaps r' := by
  induction labels using List.reverseRecOn with
  | nil => exact .nil
  | append_singleton labels l ih =>
    obtain ⟨phases, h⟩ := signing_guided gw w clients labels
    have htrace : signingTrace gw w clients (labels ++ [l]) =
        signingTrace gw w clients labels ++ (signingRun gw w clients labels).event gw.exec l := by
      unfold signingTrace signingRun
      rw [Pool.trace_append]
      simp [Pool.trace]
    rw [htrace, signings, List.filterMap_append]
    refine List.pairwise_append.mpr ⟨ih, ?_, ?_⟩
    · unfold Pool.event
      split
      · exact .nil
      · rw [List.filterMap_cons, List.filterMap_nil]
        split
        · exact .nil
        · exact List.pairwise_singleton _ _
    · intro request hrequest request' hrequest'
      obtain ⟨e, he, hsign⟩ := List.mem_filterMap.mp hrequest
      obtain ⟨e', he', hsign'⟩ := List.mem_filterMap.mp hrequest'
      cases hl : (signingRun gw w clients labels).threads l.1 with
      | done r =>
        rw [Pool.event_done gw.exec hl] at he'
        cases he'
      | call op k =>
        rw [Pool.event_call gw.exec hl] at he'
        rw [List.mem_singleton.mp he'] at hsign'
        exact not_overlaps_of_asked h he hsign (reserved_of_asking h hl hsign')

variable (gw w clients labels)

/-- Over every interleaving, crashes included, the signer is asked at most once for any one
request ID, nonce, idempotency key or canonical payload, and only while the row of the
request is pending. -/
theorem signer_asked_once :
    (signings gw (signingTrace gw w clients labels)).Pairwise (fun r r' => ¬ r.Overlaps r') ∧
      SignsPending gw (signingRun gw w clients labels) := by
  refine ⟨signings_pairwise labels, ?_⟩
  intro i op k request hcall hsign
  obtain ⟨phases, h⟩ := signing_guided gw w clients labels
  obtain ⟨-, -, row, hrow, hof, hshows⟩ := h.related.held (reserved_of_asking h hcall hsign)
  exact ⟨row, hrow, hof, hshows⟩

/-! The ledger -/

/-- What a row of the ledger shows, and of which call. -/
def Accounted (i : θ) (request : gw.Request) (row : SigningRow) : Prop :=
  (clients i).request = some request ∧ gw.RowOf request row ∧
    (row.state = .pending ∧ row.attestationJson = none ∨ row.state = .failed ∧ row.attestationJson = none ∨
      ∃ attestation, row.state = .issued ∧ row.attestationJson = some (gw.dumpAttestation attestation) ∧
        gw.validateIssuedAttestation request attestation = .ok () ∧
        Trail i (signingTrace gw w clients labels) request (.issued attestation))

/-- A call works on the ledger for its own request only. -/
theorem request_of_reserved {i : θ} {request : gw.Request} {receipt : IndependentExecutionReceipt} {now : Instant}
    (h : reserveEvent i request receipt now ∈ signingTrace gw w clients labels) :
    (clients i).request = some request := by
  have habout := Pool.issued (fun i => (clients i).program_about) labels _ h
  rcases habout with hnone | hsome
  · cases hnone
  · exact hsome.symm

theorem run_persists (pool : GatewayPool gw θ) (labels : List (θ × GatewayInput)) :
    pool.state.requests.Persists (run (Pool.step gw.exec) pool labels).state.requests := by
  induction labels generalizing pool with
  | nil => exact .refl _
  | cons l labels ih =>
    refine SigningTable.Persists.trans ?_ (ih (pool.step gw.exec l))
    cases hl : pool.threads l.1 with
    | done r =>
      rw [Pool.step_done gw.exec hl]
      exact .refl _
    | call op k =>
      rw [Pool.step_call gw.exec hl]
      exact exec_persists op l.2 pool.state

/-- The trail of a phase lies in the history of the run. -/
theorem phaseTrail_of_guided {pool : GatewayPool gw θ} {trace : List (SigningEvent gw θ)}
    {phases : θ → String → SigningPhase gw} (h : SigningGuided gw w clients pool trace phases) (i : θ) (x : String) :
    PhaseTrail i trace (phases i x) := by
  have hown : ∀ e ∈ ownEvents i trace, e.thread = i := fun e he => by simpa using (List.mem_filter.mp he).2
  have htrail : PhaseTrail i ([] ++ ownEvents i trace) (phases i x) := phaseTrail_of_walk (h.walks i x) hown trivial
  exact htrail.mono List.filter_sublist

/-- A row that was not there at the start is that of one call. -/
theorem row_accounted {row : SigningRow} (hrow : row ∈ (signingRun gw w clients labels).state.requests.rows) :
    row ∈ w.requests.rows ∨ ∃ i request, Accounted gw w clients labels i request row := by
  obtain ⟨phases, h⟩ := signing_guided gw w clients labels
  rcases h.related.rows row hrow with hstart | ⟨i, request, progress, hheld⟩
  · exact .inl hstart
  · refine .inr ⟨i, request, ?_⟩
    obtain ⟨hof, hshows⟩ := h.related.row hrow hheld
    have htrail := phaseTrail_of_guided gw w clients h i row.requestId
    rw [hheld] at htrail
    obtain ⟨receipt, now, hreserved⟩ := Trail.reserved htrail
    refine ⟨request_of_reserved gw w clients labels (hreserved.subset List.mem_cons_self), hof, ?_⟩
    cases progress with
    | reserved | signed | verified | confirmed => exact .inl hshows
    | failed => exact .inr (.inl hshows)
    | issued attestation => exact .inr (.inr ⟨attestation, hshows.1, hshows.2.1, hshows.2.2, htrail⟩)

/-- Along every run rows stay, completed rows stay as they are, and every row that was not
there at the start is that of one call: pending, failed without an attestation, or issued
with the attestation that call was given by the signer after reserving, had verified, and
recorded after finding the lease unchanged. -/
theorem ledger_accounts :
    (∀ front back, labels = front ++ back →
      (signingRun gw w clients front).state.requests.Persists (signingRun gw w clients labels).state.requests) ∧
    ∀ row ∈ (signingRun gw w clients labels).state.requests.rows, row ∈ w.requests.rows ∨
      ∃ i request, Accounted gw w clients labels i request row := by
  constructor
  · rintro front back rfl
    unfold signingRun
    rw [run_append]
    exact run_persists gw _ back
  · intro row hrow
    exact row_accounted gw w clients labels hrow

/-! What the calls return -/

def SigningTable.empty : SigningTable := ⟨[], .nil⟩

/-- A call that returned. -/
structure Returned (pool : GatewayPool gw θ) where
  thread : θ
  request : gw.Request
  attestation : Attestation
  called : (clients thread).request = some request
  done : pool.threads thread = .done (.ok (some attestation))

/-- No two requests of the run share a SHA-256. -/
def HashesDiffer : Prop :=
  ∀ i j request request', (clients i).request = some request → (clients j).request = some request' →
    gw.requestHash request = gw.requestHash request' → request = request'

/-- The JSON of each attestation the signer gave is read back as it was. -/
def ReadsBack (trace : List (SigningEvent gw θ)) : Prop :=
  ∀ i request ttlSeconds attestation, signEvent i request ttlSeconds (.ok attestation) ∈ trace →
    gw.parseAttestation (gw.dumpAttestation attestation) = some attestation

/-- The row a returned attestation stands in. -/
def Stored (t : SigningTable) (request : gw.Request) (attestation : Attestation) : Prop :=
  ∃ row ∈ t.rows, row.idempotencyKey = request.idempotencyKey ∧ row.requestHash = (gw.requestHash request).value ∧
    row.state = .issued ∧ ∃ text, row.attestationJson = some text ∧
      (text = gw.dumpAttestation attestation ∨ gw.parseAttestation text = some attestation)

variable (world : World)

/-- The returned attestation is valid for its request and stands in the ledger; when JSON
reads back, the row of the request answers with it. -/
theorem Returned.stored (a : Returned gw clients (signingRun gw ⟨world, .empty⟩ clients labels)) :
    gw.validateIssuedAttestation a.request a.attestation = .ok () ∧
      Stored gw (signingRun gw ⟨world, .empty⟩ clients labels).state.requests a.request a.attestation ∧
      (ReadsBack gw (signingTrace gw ⟨world, .empty⟩ clients labels) →
        gw.Answers (signingRun gw ⟨world, .empty⟩ clients labels).state.requests a.request a.attestation) := by
  obtain ⟨phases, h⟩ := signing_guided gw ⟨world, .empty⟩ clients labels
  have hended := h.follows a.thread a.request.requestId.value
  rw [a.done] at hended
  obtain ⟨hvalid, hphase⟩ := hended a.request a.attestation a.called rfl rfl
  refine ⟨hvalid, ?_⟩
  rcases hphase with hheld | hreplaying
  · obtain ⟨-, -, row, hrow, hof, hstate, hjson, -⟩ := h.related.held hheld
    obtain ⟨columns, now, hreservation⟩ := hof
    have hkey : row.idempotencyKey = a.request.idempotencyKey := (congrArg SigningRow.idempotencyKey hreservation :)
    have hhash : row.requestHash = (gw.requestHash a.request).value := (congrArg SigningRow.requestHash hreservation :)
    refine ⟨⟨row, hrow, hkey, hhash, hstate, _, hjson, .inl rfl⟩, fun hreads =>
      ⟨row, hrow, hkey, hhash, hstate, _, hjson, ?_⟩⟩
    have htrail := phaseTrail_of_guided gw ⟨world, .empty⟩ clients h a.thread a.request.requestId.value
    rw [hheld] at htrail
    obtain ⟨receipt, _, ttlSeconds, current, -, -, hsub⟩ := htrail
    exact hreads _ _ _ _ (hsub.subset (List.mem_cons_of_mem _ List.mem_cons_self))
  · have hanswers := h.related.replaying hreplaying
    obtain ⟨row, hrow, hkey, hhash, hstate, text, htext, hparse⟩ := hanswers
    exact ⟨⟨row, hrow, hkey, hhash, hstate, text, htext, .inr hparse⟩, fun _ =>
      ⟨row, hrow, hkey, hhash, hstate, text, htext, hparse⟩⟩

omit [DecidableEq θ] in
theorem hash_eq {request request' : gw.Request} (h : (gw.requestHash request).value = (gw.requestHash request').value) :
    gw.requestHash request = gw.requestHash request' := by
  cases hd : gw.requestHash request
  cases hd' : gw.requestHash request'
  simp only [hd, hd'] at h
  subst h
  rfl

/-- The row that answers a request of the run is the one that request reserved. -/
theorem rowOf_of_answer (hdiffer : HashesDiffer gw clients) {i : θ} {request : gw.Request}
    (hrequest : (clients i).request = some request) {row : SigningRow}
    (hrow : row ∈ (signingRun gw ⟨world, .empty⟩ clients labels).state.requests.rows)
    (hhash : row.requestHash = (gw.requestHash request).value) : gw.RowOf request row := by
  rcases row_accounted gw ⟨world, .empty⟩ clients labels hrow with hstart | ⟨j, request', hclient, hof, -⟩
  · cases hstart
  · obtain ⟨columns, now, hreservation⟩ := hof
    have hhash' : row.requestHash = (gw.requestHash request').value := (congrArg SigningRow.requestHash hreservation :)
    rw [← hdiffer j i request' request hclient hrequest (hash_eq gw (hhash'.symm.trans hhash))]
    exact ⟨columns, now, hreservation⟩

/-- Over every interleaving from an empty ledger, what a call returns is valid for its request
and stands in the ledger under its key; and any two calls that return, whose requests share
an ID, a nonce, a key or a payload, had one request and return one attestation. -/
theorem answers_agree :
    (∀ a : Returned gw clients (signingRun gw ⟨world, .empty⟩ clients labels),
      gw.validateIssuedAttestation a.request a.attestation = .ok () ∧
        Stored gw (signingRun gw ⟨world, .empty⟩ clients labels).state.requests a.request a.attestation) ∧
    ∀ a b : Returned gw clients (signingRun gw ⟨world, .empty⟩ clients labels), HashesDiffer gw clients →
      ReadsBack gw (signingTrace gw ⟨world, .empty⟩ clients labels) → a.request.Overlaps b.request →
      a.request = b.request ∧ a.attestation = b.attestation := by
  constructor
  · intro a
    obtain ⟨hvalid, hstored, -⟩ := a.stored
    exact ⟨hvalid, hstored⟩
  · intro a b hdiffer hreads ho
    obtain ⟨-, -, hanswers⟩ := a.stored
    obtain ⟨-, -, hanswers'⟩ := b.stored
    obtain ⟨row, hrow, -, hhash, -, text, htext, hparse⟩ := hanswers hreads
    obtain ⟨row', hrow', -, hhash', -, text', htext', hparse'⟩ := hanswers' hreads
    have hof := rowOf_of_answer gw clients labels world hdiffer a.called hrow hhash
    have hof' := rowOf_of_answer gw clients labels world hdiffer b.called hrow' hhash'
    have heq : row = row' := SigningTable.eq_of_clashes hrow hrow' (RowOf.clashes gw hof hof' ho)
    subst heq
    rw [htext] at htext'
    cases htext'
    rw [hparse] at hparse'
    exact ⟨hdiffer _ _ _ _ a.called b.called (hash_eq gw (hhash.symm.trans hhash')), Option.some.inj hparse'⟩

end Results

/-! One request answered twice -/

/-- The signatures the signer gave are the ones the run supplied. -/
theorem readsBack_of_signatures {gw : VerifierSigningGateway} {w : GatewayWorld} {θ : Type} [DecidableEq θ]
    {clients : θ → GatewayClient gw} {labels : List (θ × GatewayInput)}
    (h : ∀ l ∈ labels, ∀ attestation, l.2.signature = .ok attestation →
      gw.parseAttestation (gw.dumpAttestation attestation) = some attestation) :
    ReadsBack gw (signingTrace gw w clients labels) := by
  unfold signingTrace
  generalize GatewayPool.start w clients = pool
  intro i request ttlSeconds attestation hsign
  induction labels generalizing pool with
  | nil => cases hsign
  | cons l labels ih =>
    obtain ⟨hl, hrest⟩ := List.forall_mem_cons.mp h
    rcases List.mem_append.mp hsign with hnow | hlater
    · cases hthread : pool.threads l.1 with
      | done r =>
        rw [Pool.event_done gw.exec hthread] at hnow
        cases hnow
      | call op k =>
        rw [Pool.event_call gw.exec hthread] at hnow
        have hevent := List.mem_singleton.mp hnow
        obtain rfl : GatewayOp.sign request ttlSeconds = op := congrArg Event.op hevent
        simp only [signEvent, Event.mk.injEq, heq_eq_eq, true_and] at hevent
        exact hl attestation hevent.2.symm
    · exact ih hrest _ hlater

theorem signingContext_revision : (1 : Int) ≤ 1 := le_rfl

def signingContext : VerificationSigningContext where
  bundleId := sampleId
  bundleHash := sampleDigest
  proofId := sampleId
  proofSubmissionArtifactDigest := sampleProofDigest
  contractId := sampleId
  revision := 1
  contractHash := sampleDigest
  proofBoundaryHash := sampleDigest
  environmentHash := sampleDigest
  dependencyManifestHash := sampleDigest
  reportId := sampleId
  verificationReportHash := sampleDigest
  verifierId := "verifier"
  evidenceIdentity := sampleId
  verificationEvidenceHash := sampleDigest
  evidenceArtifactDigest := sampleEvidenceDigest
  revision_pos := signingContext_revision
  verifierId_safe := by decide

theorem signedNonce_shaped : IsAttestationNonce "nonce-9876543210" := by decide +kernel

def signedAttestation : Attestation := sampleAttestation .verification "nonce-9876543210" signedNonce_shaped

def checkedReceipt : IndependentExecutionReceipt where
  receiptId := "receipt"
  verifierId := "verifier"
  checkedAt := some 0
  requestHash := sampleHash
  evidenceArtifactDigest := sampleEvidenceDigest.value
  evidenceDigest := sampleHash
  executionClaimHash := sampleHash
  receiptHash := sampleHash
  authentication := some ⟨"receipts", "hmac-sha256", sampleHash, sampleHash⟩

/-- A gateway over the service of one bundle, that stores one attestation. -/
def sampleGateway : VerifierSigningGateway where
  control := sampleService
  trustPolicy := ⟨"key", .testOnly, fun _ => some "receipts"⟩
  approvedImageIdentities _ := some "wrapper"
  maxTtlSeconds := 60
  requestHash _ := sampleDigest
  receiptHash _ := sampleHash
  totalSeconds microseconds := microseconds / 1000000
  timestamp _ := "1970-01-01T00:00:00+00:00"
  fromTimestamp _ := some (some 0)
  dumpAttestation _ := "attestation"
  parseAttestation _ := some signedAttestation
  wrapperIdentityHash _ := "wrapper"
  executionClaimHash _ := sampleHash
  normalizedEvidence _ := false
  ttl_bounded := by norm_num
  local_authority := by decide

def sampleRequest : sampleGateway.Request where
  requestId := sampleId
  requestNonce := "nonce-0123456789"
  idempotencyKey := "sign"
  requestedAt := ⟨0, 0⟩
  expiresAt := ⟨60000000, 0⟩
  lease := ⟨sampleId, "worker", 1, ⟨60000000, 0⟩, by decide, sampleLease.token_pos⟩
  context := signingContext
  canonicalPayloadHash := sampleDigest
  nonce_shaped := sampleNonce.nonce_safe
  key_safe := by decide
  expires_after_request := signedAttestation.expires_after_issue
  within_lease := le_rfl
  same_bundle := rfl
  payload_bound := rfl

/-- The bundle is registered, its proof submitted and the evidence stored. -/
def submittedWorld : World :=
  (run (CommandPool.step sampleService) (CommandPool.start sampleService verifyingCommands) (verifyingRun.take 11)).state

def signingStep (i : Bool) : Bool × GatewayInput :=
  (i, ⟨⟨.sample 0 'f', true⟩, some 0, .ok (some checkedReceipt), .ok (), .ok signedAttestation, .ok ()⟩)

/-- The first call reserves, signs and records; the second finds its row. -/
def signingTwice : List (Bool × GatewayInput) :=
  List.replicate 28 (signingStep true) ++ List.replicate 9 (signingStep false)

/-- The attestation a call has returned. -/
def GatewayPool.answer {gw : VerifierSigningGateway} {θ : Type} (pool : GatewayPool gw θ) (i : θ) : Option Attestation :=
  match pool.threads i with
  | .done (.ok (some attestation)) => some attestation
  | _ => none

theorem GatewayPool.answer_eq_some {gw : VerifierSigningGateway} {θ : Type} {pool : GatewayPool gw θ} {i : θ}
    {attestation : Attestation} (h : pool.answer i = some attestation) :
    pool.threads i = .done (.ok (some attestation)) := by
  unfold GatewayPool.answer at h
  split at h
  · rename_i a ha
    cases h
    exact ha
  · cases h

theorem signingTwice_answers :
    let pool := signingRun sampleGateway ⟨submittedWorld, .empty⟩ (fun _ => .issue sampleRequest) signingTwice
    (pool.answer true).isSome = true ∧ (pool.answer false).isSome = true := by
  decide +kernel

/-- Two calls of one request both return, with one attestation that stands in the ledger. -/
theorem answers_agree_sample :
    let pool := signingRun sampleGateway ⟨submittedWorld, .empty⟩ (fun _ => .issue sampleRequest) signingTwice
    ∃ attestation, pool.threads true = .done (.ok (some attestation)) ∧
      pool.threads false = .done (.ok (some attestation)) ∧
      sampleGateway.validateIssuedAttestation sampleRequest attestation = .ok () ∧
      Stored sampleGateway pool.state.requests sampleRequest attestation := by
  intro pool
  obtain ⟨hfirst, hsecond⟩ := signingTwice_answers
  obtain ⟨attestation, ha⟩ := Option.isSome_iff_exists.mp hfirst
  obtain ⟨attestation', hb⟩ := Option.isSome_iff_exists.mp hsecond
  obtain ⟨hstands, hagree⟩ := answers_agree sampleGateway (fun _ => .issue sampleRequest) signingTwice submittedWorld
  have hdiffer : HashesDiffer sampleGateway fun _ : Bool => .issue sampleRequest := by
    rintro i j _ _ ⟨rfl⟩ ⟨rfl⟩ -
    rfl
  have hreads : ReadsBack sampleGateway (signingTrace sampleGateway ⟨submittedWorld, .empty⟩
      (fun _ => .issue sampleRequest) signingTwice) := by
    refine readsBack_of_signatures fun l hl a ha => ?_
    rcases List.mem_append.mp hl with hl | hl <;> obtain rfl := List.eq_of_mem_replicate hl <;> cases ha <;> rfl
  let first : Returned sampleGateway (fun _ => .issue sampleRequest) pool :=
    ⟨true, sampleRequest, attestation, rfl, GatewayPool.answer_eq_some ha⟩
  let second : Returned sampleGateway (fun _ => .issue sampleRequest) pool :=
    ⟨false, sampleRequest, attestation', rfl, GatewayPool.answer_eq_some hb⟩
  obtain ⟨hvalid, hstored⟩ := hstands first
  obtain rfl : attestation = attestation' := (hagree first second hdiffer hreads (.inl rfl)).2
  exact ⟨attestation, first.done, second.done, hvalid, hstored⟩

end Autolean.ControlPlane
