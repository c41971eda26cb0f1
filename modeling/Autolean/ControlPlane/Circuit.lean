import Autolean.ControlPlane.Capabilities

/-! The provider circuit. A request is refused after enough failures of its provider in a row.
The service reads that off a bounded scan of its health ledger; the ledger is the history of
what settled and abandoned reservations say of their providers. -/
namespace Autolean.ControlPlane
open Contracts Machine Raising

/-- The refusal of an open circuit. -/
def circuitOpen : ControlPlaneError :=
  .modelExecutionAuthorizationError "provider circuit is open for the authorized provider binding"

/-- What a terminal ledger row says of the provider of its authorization: a success, a failure
code, or nothing. -/
def healthOutcome (t : AuthorityTables) (row : LedgerRow) : Option (ModelExecutionProviderBinding × Option String) :=
  match t.authorizations row.authorizationId, row.eventType with
  | some a, .settled => some (a.authorization.provider, none)
  | some a, .abandoned =>
    if ∃ code ∈ row.reason, code ∈ providerHealthFailureCodes then some (a.authorization.provider, row.reason) else none
  | _, _ => none

/-- The health outcomes of all settled and abandoned reservations, oldest first. -/
def healthOutcomes (t : AuthorityTables) : List (ModelExecutionProviderBinding × Option String) :=
  t.ledger.filterMap (healthOutcome t)

/-- The health events of one binding, oldest first. -/
def healthHistory (t : AuthorityTables) (provider : ModelExecutionProviderBinding) : List HealthRow :=
  t.health.filter fun row => row.binding = provider

/-- The failures since the last success, latest first. -/
def trailingFailures (history : List HealthRow) : List HealthRow :=
  history.reverse.takeWhile fun row => row.failureCode.isSome

namespace AuthorityService
variable (svc : AuthorityService)

/-- At least the threshold of failures in a row, the latest of them less than the cooldown ago. -/
def CircuitOpen (history : List HealthRow) (now : Instant) : Prop :=
  svc.providerFailureThreshold ≤ (trailingFailures history).length ∧
    ∃ latest ∈ (trailingFailures history).head?, ∃ reopensAt,
      addSeconds latest.recordedAt svc.providerFailureCooldownSeconds = .ok reopensAt ∧ now < reopensAt

/-- What `preflight` and `reserve` check of a request before the provider circuit. -/
def admission (authorization : ModelExecutionAuthorization) (provider : ModelExecutionProviderBinding)
    (requestedInputTokens requestedOutputTokens : Int) (contextPackHash : Option Digest) (outboundRequestHash : Digest)
    (r : AuthorityReadings) (leases : LeaseTables) (t : AuthorityTables) : Raises Unit := do
  svc.verifyCapability authorization (r.now 0) r.verifierNow
  validateRequestLimits authorization provider requestedInputTokens requestedOutputTokens contextPackHash
    outboundRequestHash
  let stored ← svc.storedAuthorization t authorization.authorizationId.value
  ensure (stored = authorization) (.modelExecutionAuthorizationError
    "supplied model execution authorization differs from the control-plane record")
  assertActive t leases authorization (r.now 1) r.leaseNow

/-- Validate authority before a provider probe can perform endpoint I/O. -/
def preflight (authorization : ModelExecutionAuthorization) (provider : ModelExecutionProviderBinding)
    (requestedInputTokens requestedOutputTokens : Int) (contextPackHash : Option Digest) (outboundRequestHash : Digest)
    (r : AuthorityReadings) (leases : LeaseTables) (t : AuthorityTables) : Raises Unit := do
  svc.verifyCapability authorization (r.now 0) r.verifierNow
  validateRequestLimits authorization provider requestedInputTokens requestedOutputTokens contextPackHash
    outboundRequestHash
  let stored ← svc.storedAuthorization t authorization.authorizationId.value
  ensure (stored = authorization) (.modelExecutionAuthorizationError
    "supplied model execution authorization differs from the control-plane record")
  assertActive t leases authorization (r.now 1) r.leaseNow
  svc.assertProviderCircuitClosed t provider (r.now 2)

end AuthorityService

/-! The bounded scan -/

/-- A scan of the latest `n` entries sees `n` leading hits exactly when the whole list has them. -/
theorem length_takeWhile_take {α : Type*} (p : α → Bool) (n : Nat) (l : List α) :
    n ≤ ((l.take n).takeWhile p).length ↔ n ≤ (l.takeWhile p).length := by
  induction l generalizing n with
  | nil => simp
  | cons a l ih =>
    cases n with
    | zero => simp
    | succ n =>
      rw [List.take_succ_cons, List.takeWhile_cons, List.takeWhile_cons]
      split
      · simpa using ih n
      · simp

theorem head?_takeWhile_take {α : Type*} (p : α → Bool) {n : Nat} (hn : 0 < n) (l : List α) :
    ((l.take n).takeWhile p).head? = (l.takeWhile p).head? := by
  cases l with
  | nil => simp
  | cons a l =>
    obtain ⟨m, rfl⟩ := Nat.exists_eq_succ_of_ne_zero hn.ne'
    rw [List.take_succ_cons, List.takeWhile_cons, List.takeWhile_cons]
    split <;> rfl

section
variable {svc : AuthorityService} {t t' : AuthorityTables} {r : AuthorityReadings} {leases : LeaseTables}

/-- Rows of one binding with health codes are scanned to the failures before the first success. -/
theorem consecutiveFailures_eq {provider : ModelExecutionProviderBinding} {rows : List HealthRow}
    (hbinding : ∀ row ∈ rows, row.binding = provider)
    (hcode : ∀ row ∈ rows, ∀ code ∈ row.failureCode, code ∈ providerHealthFailureCodes) :
    AuthorityService.consecutiveFailures provider rows =
      .ok ((rows.takeWhile fun row => row.failureCode.isSome).map (·.recordedAt)) := by
  induction rows with
  | nil => rfl
  | cons row rows ih =>
    obtain ⟨hb, hbs⟩ := List.forall_mem_cons.mp hbinding
    obtain ⟨hc, hcs⟩ := List.forall_mem_cons.mp hcode
    rw [AuthorityService.consecutiveFailures, List.takeWhile_cons, ensure, if_pos hb]
    cases hf : row.failureCode with
    | none => rfl
    | some code =>
      have hhealth : code ∈ providerHealthFailureCodes := hc code hf
      have hknown : code ∈ providerFailureCodes := by
        revert code
        simp only [providerHealthFailureCodes, providerFailureCodes, List.mem_cons, List.not_mem_nil, or_false]
        tauto
      simp only [ok_bind, validateProviderFailureCode, ensure, if_pos hknown, if_pos hhealth, ih hbs hcs]
      rfl

/-! The health ledger is the history of outcomes -/

/-- The health events are the health outcomes of the ledger, each under the hash of its binding. -/
structure HealthKept (svc : AuthorityService) (t : AuthorityTables) : Prop where
  budgets : BudgetsKept t
  recorded : t.health.map (fun row => (row.binding, row.failureCode)) = healthOutcomes t
  hashed : ∀ row ∈ t.health, row.bindingHash = svc.bindingHash row.binding
  coded : ∀ row ∈ t.health, ∀ code ∈ row.failureCode, code ∈ providerHealthFailureCodes

/-- What one transaction does to the two ledgers. -/
inductive HealthMoves (svc : AuthorityService) (t t' : AuthorityTables) : Prop
  | stay : t'.ledger = t.ledger → t'.health = t.health → HealthMoves svc t t'
  | silent (row : LedgerRow) : (∀ tables, healthOutcome tables row = none) → t'.ledger = t.ledger ++ [row] →
      t'.health = t.health → HealthMoves svc t t'
  | observed (row : LedgerRow) (event : HealthRow) : healthOutcome t row = some (event.binding, event.failureCode) →
      event.bindingHash = svc.bindingHash event.binding →
      (∀ code ∈ event.failureCode, code ∈ providerHealthFailureCodes) → t'.ledger = t.ledger ++ [row] →
      t'.health = t.health ++ [event] → HealthMoves svc t t'

theorem reserve_health {a : ModelExecutionAuthorization} {provider : ModelExecutionProviderBinding} {input output : Int}
    {pack : Option Digest} {request : Digest} {reservation : ModelExecutionReservation}
    (h : svc.reserve a provider input output pack request r leases t = .ok (reservation, t')) :
    HealthMoves svc t t' := by
  obtain ⟨-, -, -, -, -, rfl⟩ := AuthorityService.reserve_ok h
  refine .silent _ (fun tables => ?_) rfl rfl
  unfold healthOutcome
  cases tables.authorizations _ <;> rfl

/-- The authorization a transaction found is the one its rows are counted under. -/
theorem BudgetsKept.counted (hk : BudgetsKept t) {id : String} {stored : AuthorizationRow}
    (h : t.authorizations id = some stored) :
    t.authorizations stored.authorization.authorizationId.value = some stored := by
  rw [hk.keyed id stored h]
  exact h

theorem settle_health (hk : BudgetsKept t) {reservation : ModelExecutionReservation} {input cached output : Int}
    (h : svc.settle reservation input cached output r leases t = .ok t') : HealthMoves svc t t' := by
  obtain ⟨stored, _, _, hs, -, hsettles⟩ := AuthorityService.settle_ok h
  have hcounted := hk.counted hs.found
  cases hsettles with
  | replayed => exact .stay rfl rfl
  | appended =>
    refine .observed _ _ ?_ rfl (by simp [AuthorityService.healthRow]) rfl rfl
    simp [healthOutcome, AuthorityService.settledRow, AuthorityService.healthRow, hcounted]

theorem abandon_health (hk : BudgetsKept t) {reservation : ModelExecutionReservation} {failureCode : String}
    (h : svc.abandon reservation failureCode r t = .ok t') : HealthMoves svc t t' := by
  obtain ⟨stored, _, _, hs, habandons⟩ := AuthorityService.abandon_ok h
  have hcounted := hk.counted hs.found
  cases habandons with
  | closed => exact .stay rfl rfl
  | observed _ hcode =>
    refine .observed _ _ ?_ rfl (by simpa [AuthorityService.healthRow] using hcode) rfl rfl
    simp [healthOutcome, AuthorityService.abandonedRow, AuthorityService.healthRow, hcounted, hcode]
  | silent _ hcode =>
    refine .silent _ (fun tables => ?_) rfl rfl
    unfold healthOutcome
    cases tables.authorizations _ <;> simp [AuthorityService.abandonedRow, hcode]

theorem revoke_health {id : StableIdentifier} {reason key : String}
    (h : svc.revoke id reason key r t = .ok t') : HealthMoves svc t t' := by
  cases AuthorityService.revoke_ok h with
  | replayed | keyed => exact .stay rfl rfl
  | appended =>
    refine .silent _ (fun tables => ?_) rfl rfl
    unfold healthOutcome
    cases tables.authorizations _ <;> rfl

theorem record_health {a a' : ModelExecutionAuthorization} {request : IssueRequest} {key : String}
    (h : svc.record a request key t = .ok (a', t')) : t'.ledger = t.ledger ∧ t'.health = t.health := by
  cases AuthorityService.record_ok h with
  | replayed | keyed | inserted => exact ⟨rfl, rfl⟩

theorem registerOperatorApproval_health {approval approval' : ModelExecutionProviderApproval} {key : String}
    (h : svc.registerOperatorApproval approval key t = .ok (approval', t')) : t'.health = t.health := by
  obtain ⟨_, _, rfl⟩ := AuthorityService.registerOperatorApproval_ok h
  rfl

/-- Every step keeps the two ledgers in step with each other. -/
theorem authorityStep_health (w : AuthorityWorld) (hk : BudgetsKept w.authority) (l : AuthorityOp × AuthorityInput) :
    HealthMoves svc w.authority (authorityStep svc w l).authority := by
  obtain ⟨op, i⟩ := l
  have hstay : HealthMoves svc w.authority w.authority := .stay rfl rfl
  cases op with
  | registerOperatorApproval approval key =>
    refine committed_keeps hstay fun _ _ hx => ?_
    exact .stay (registerOperatorApproval_moves hx).2 (registerOperatorApproval_health hx)
  | record a request key =>
    refine committed_keeps hstay fun _ _ hx => ?_
    obtain ⟨hledger, hhealth⟩ := record_health hx
    exact .stay hledger hhealth
  | reserve a provider input output pack request => exact committed_keeps hstay fun _ _ hx => reserve_health hx
  | settle reservation input cached output => exact changed_keeps hstay fun _ hx => settle_health hk hx
  | abandon reservation code => exact changed_keeps hstay fun _ hx => abandon_health hk hx
  | revoke id reason key => exact changed_keeps hstay fun _ hx => revoke_health hx
  | store _ | now | storedProviderApproval _ | sign _ _ | verifyCapability _ => exact hstay

/-- A recorded authorization stays the one its rows are counted under. -/
theorem healthOutcome_grown (hgrown : ∀ id a, t.authorizations id = some a → t'.authorizations id = some a)
    {row : LedgerRow} (hknown : (t.authorizations row.authorizationId).isSome = true) :
    healthOutcome t' row = healthOutcome t row := by
  obtain ⟨a, ha⟩ := Option.isSome_iff_exists.mp hknown
  unfold healthOutcome
  rw [ha, hgrown _ a ha]

theorem HealthKept.moves (h : HealthKept svc t) (hm : HealthMoves svc t t') (hk : BudgetsKept t')
    (hgrown : ∀ id a, t.authorizations id = some a → t'.authorizations id = some a) : HealthKept svc t' := by
  have hold : t.ledger.filterMap (healthOutcome t') = healthOutcomes t :=
    List.filterMap_congr fun row hrow => healthOutcome_grown hgrown (h.budgets.known row hrow)
  cases hm with
  | stay hledger hhealth =>
    refine ⟨hk, ?_, hhealth ▸ h.hashed, hhealth ▸ h.coded⟩
    rw [hhealth, h.recorded, ← hold, healthOutcomes, hledger]
  | silent row hnone hledger hhealth =>
    refine ⟨hk, ?_, hhealth ▸ h.hashed, hhealth ▸ h.coded⟩
    rw [hhealth, h.recorded, ← hold, healthOutcomes, hledger, List.filterMap_append, List.filterMap_cons, hnone t']
    simp
  | observed row event hsome hbinding hcode hledger hhealth =>
    have hrow : healthOutcome t' row = some (event.binding, event.failureCode) := by
      rw [← hsome]
      apply healthOutcome_grown hgrown
      cases ha : t.authorizations row.authorizationId with
      | none => simp [healthOutcome, ha] at hsome
      | some a => rfl
    refine ⟨hk, ?_, ?_, ?_⟩
    · rw [hhealth, List.map_append, h.recorded, ← hold, healthOutcomes, hledger, List.filterMap_append,
        List.filterMap_cons, hrow]
      rfl
    · rw [hhealth]
      intro e he
      rcases List.mem_append.mp he with he | he
      · exact h.hashed e he
      · rw [List.mem_singleton.mp he]
        exact hbinding
    · rw [hhealth]
      intro e he
      rcases List.mem_append.mp he with he | he
      · exact h.coded e he
      · rw [List.mem_singleton.mp he]
        exact hcode

/-- Authorizations are only added. -/
theorem authorityStep_grown (w : AuthorityWorld) (l : AuthorityOp × AuthorityInput) (id : String) (a : AuthorizationRow)
    (ha : w.authority.authorizations id = some a) : (authorityStep svc w l).authority.authorizations id = some a := by
  obtain hm | ⟨b, request, key, -, hi⟩ := authorityStep_moves svc w l
  · rw [hm.authorizations]
    exact ha
  · obtain ⟨row, rfl, hauth⟩ := hi.inserted
    rw [hauth, Function.update_of_ne]
    · exact ha
    · rintro rfl
      rw [hi.id_free] at ha
      cases ha

/-- In every run the health events are the health outcomes of the reservations. -/
theorem health_kept (labels : List (AuthorityOp × AuthorityInput)) :
    HealthKept svc (run (authorityStep svc) .empty labels).authority := by
  have keeps {w : AuthorityWorld} (hw : HealthKept svc w.authority) (l : AuthorityOp × AuthorityInput) :
      HealthKept svc (authorityStep svc w l).authority := by
    have hk : BudgetsKept (authorityStep svc w l).authority := by
      obtain hm | ⟨a, request, key, -, hi⟩ := authorityStep_moves svc w l
      · exact hw.budgets.moves hm
      · exact hw.budgets.grants hi
    exact hw.moves (authorityStep_health w hw.budgets l) hk (authorityStep_grown w l)
  have empty : HealthKept svc AuthorityWorld.empty.authority := by
    refine ⟨⟨?_, ?_, ?_⟩, rfl, ?_, ?_⟩ <;> simp [AuthorityWorld.empty, AuthorityTables.empty]
  exact (run_keeps (fun w : AuthorityWorld => HealthKept svc w.authority) (fun _ _ => True) (fun _ => trivial)
    (fun _ _ => trivial) (fun hw l => ⟨keeps hw l, trivial⟩) empty labels).1

/-! The circuit check -/

/-- The bounded scan refuses exactly when the circuit of the full history is open. -/
theorem assertProviderCircuitClosed_refuses (h : HealthKept svc t) {provider : ModelExecutionProviderBinding}
    (hdistinct : ∀ event ∈ t.health, svc.bindingHash event.binding = svc.bindingHash provider → event.binding = provider)
    (now : Instant) :
    svc.assertProviderCircuitClosed t provider now = .error circuitOpen ↔
      svc.CircuitOpen (healthHistory t provider) now := by
  have hhistory : (t.health.filter fun row => row.bindingHash = svc.bindingHash provider) = healthHistory t provider := by
    apply List.filter_congr
    intro event he
    rw [h.hashed event he, decide_eq_decide]
    exact ⟨hdistinct event he, fun heq => heq ▸ rfl⟩
  have hmem : ∀ row ∈ (healthHistory t provider).reverse.take svc.providerFailureThreshold,
      row ∈ t.health ∧ row.binding = provider := by
    intro row hrow
    have hin := List.mem_reverse.mp (List.mem_of_mem_take hrow)
    exact ⟨List.mem_of_mem_filter hin, by simpa using List.of_mem_filter hin⟩
  have hscan := consecutiveFailures_eq (fun row hrow => (hmem row hrow).2)
    (fun row hrow => h.coded row (hmem row hrow).1)
  have hpos : 0 < svc.providerFailureThreshold := svc.threshold_bounded.1
  rw [AuthorityService.assertProviderCircuitClosed, hhistory, hscan]
  simp only [ok_bind]
  set failures := ((healthHistory t provider).reverse.take svc.providerFailureThreshold).takeWhile
    (fun row => row.failureCode.isSome) with hfailures
  have hcount : svc.providerFailureThreshold ≤ failures.length ↔
      svc.providerFailureThreshold ≤ (trailingFailures (healthHistory t provider)).length :=
    length_takeWhile_take _ _ _
  have hlatest : failures.head? = (trailingFailures (healthHistory t provider)).head? :=
    head?_takeWhile_take _ hpos _
  unfold AuthorityService.CircuitOpen
  rw [← hcount, ← hlatest]
  cases failures with
  | nil =>
    simp only [List.map_nil, List.head?_nil]
    constructor
    · intro hp
      cases hp
    · rintro ⟨-, latest, hl, -⟩
      cases hl
  | cons latest rest =>
    simp only [List.map_cons, List.length_cons, List.length_map, List.head?_cons, Option.mem_def, Option.some.injEq,
      exists_eq_left']
    split
    · rename_i hc
      cases hadd : addSeconds latest.recordedAt svc.providerFailureCooldownSeconds with
      | error e =>
        have he : e = .overflowError := by
          unfold addSeconds at hadd
          split at hadd <;> simp_all
        simp [he, circuitOpen]
      | ok reopensAt => simp [circuitOpen, hc]
    · rename_i hc
      simp [hc, pure, Except.pure]

/-! Where a request meets the circuit -/

private theorem bind_ne_error {α β : Type} {e : ControlPlaneError} {x : Raises α} {f : α → Raises β} (hx : x ≠ .error e)
    (hf : ∀ a, f a ≠ .error e) : (x >>= f) ≠ .error e := by
  cases x with
  | ok a => exact hf a
  | error e' =>
    rw [error_bind]
    intro h
    cases h
    exact hx rfl

private theorem foldlM_ne_error {α β : Type} {e : ControlPlaneError} {f : β → α → Raises β}
    (hf : ∀ b a, f b a ≠ .error e) (l : List α) (b : β) : l.foldlM f b ≠ .error e := by
  induction l generalizing b with
  | nil => intro h; cases h
  | cons a l ih => exact bind_ne_error (hf b a) ih

private theorem check_ne_error {c : Prop} [Decidable c] {e e' : ControlPlaneError} (h : e' ≠ e) :
    ensure c e' ≠ .error e := by
  rw [Ne, ensure_eq_error]
  exact fun hc => h hc.2

private theorem pure_ne_error {α : Type} {e : ControlPlaneError} (a : α) : (pure a : Raises α) ≠ .error e := by
  intro h
  cases h

theorem admission_ne_open {a : ModelExecutionAuthorization} {provider : ModelExecutionProviderBinding} {input output : Int}
    {pack : Option Digest} {request : Digest} :
    svc.admission a provider input output pack request r leases t ≠ .error circuitOpen := by
  have hverify : svc.verifyCapability a (r.now 0) r.verifierNow ≠ .error circuitOpen := by
    unfold AuthorityService.verifyCapability
    cases a.attestation with
    | none => simp [unauthorized, circuitOpen]
    | some attestation =>
      exact bind_ne_error (check_ne_error (by simp [circuitOpen])) fun _ =>
        bind_ne_error (check_ne_error (by simp [circuitOpen])) fun _ => check_ne_error (by simp [circuitOpen])
  have hlimits : AuthorityService.validateRequestLimits a provider input output pack request ≠ .error circuitOpen := by
    unfold AuthorityService.validateRequestLimits
    iterate 7 refine bind_ne_error (check_ne_error (by simp [circuitOpen])) fun _ => ?_
    exact check_ne_error (by simp [circuitOpen])
  have hstored : svc.storedAuthorization t a.authorizationId.value ≠ .error circuitOpen := by
    unfold AuthorityService.storedAuthorization
    cases t.authorizations a.authorizationId.value with
    | none => simp [unauthorized, circuitOpen]
    | some row => exact bind_ne_error (check_ne_error (by simp [circuitOpen])) fun _ => pure_ne_error _
  have hactive : AuthorityService.assertActive t leases a (r.now 1) r.leaseNow ≠ .error circuitOpen := by
    unfold AuthorityService.assertActive
    refine bind_ne_error (check_ne_error (by simp [circuitOpen])) fun _ => ?_
    refine bind_ne_error (check_ne_error (by simp [circuitOpen])) fun _ => ?_
    refine bind_ne_error ?_ fun lease => ?_
    · unfold Lease.make
      split
      · split <;> simp [circuitOpen]
      · simp [circuitOpen]
    · unfold LeaseTables.assertCurrent
      cases leases.workerLeases lease.jobId with
      | none => simp [AuthorityService.refuseStale, unauthorized, circuitOpen]
      | some row =>
        simp only [ensure]
        split <;> simp [AuthorityService.refuseStale, unauthorized, circuitOpen]
  exact bind_ne_error hverify fun _ => bind_ne_error hlimits fun _ => bind_ne_error hstored fun _ =>
    bind_ne_error (check_ne_error (by simp [circuitOpen])) fun _ => hactive

private theorem requiredNonnegativeInt_ne_open {key : String} {minimum : Int} {value : Option Int}
    (hkey : "authorization ledger has invalid " ++ key ≠ "provider circuit is open for the authorized provider binding") :
    requiredNonnegativeInt key minimum value ≠ .error circuitOpen := by
  cases value with
  | none => simpa [requiredNonnegativeInt, unauthorized, circuitOpen] using hkey
  | some value =>
    exact bind_ne_error (check_ne_error (by simpa [circuitOpen] using hkey)) fun _ => pure_ne_error _

private theorem rowReservationId_ne_open {row : LedgerRow} : rowReservationId row ≠ .error circuitOpen := by
  unfold rowReservationId
  cases row.reservationId with
  | none => simp [unauthorized, circuitOpen]
  | some id => exact bind_ne_error (check_ne_error (by simp [circuitOpen])) fun _ => pure_ne_error _

private theorem openState_ne_open {states : List ReservationState} {id : String} :
    openState states id ≠ .error circuitOpen := by
  unfold openState
  cases stateOf states id with
  | none => simp [unauthorized, circuitOpen]
  | some state => exact bind_ne_error (check_ne_error (by simp [circuitOpen])) fun _ => pure_ne_error _

theorem applyRow_ne_open (states : List ReservationState) (row : LedgerRow) :
    applyRow states row ≠ .error circuitOpen := by
  unfold applyRow
  cases row.eventType with
  | revoked => simp
  | reserved =>
    refine bind_ne_error rowReservationId_ne_open fun id => ?_
    refine bind_ne_error (check_ne_error (by simp [circuitOpen])) fun _ => ?_
    refine bind_ne_error ?_ fun _ => pure_ne_error _
    refine bind_ne_error (requiredNonnegativeInt_ne_open (by simp)) fun _ => ?_
    refine bind_ne_error (requiredNonnegativeInt_ne_open (by simp)) fun _ => ?_
    refine bind_ne_error (requiredNonnegativeInt_ne_open (by simp)) fun _ => ?_
    exact bind_ne_error (requiredNonnegativeInt_ne_open (by simp)) fun _ => pure_ne_error _
  | abandoned =>
    refine bind_ne_error rowReservationId_ne_open fun id => ?_
    refine bind_ne_error openState_ne_open fun state => ?_
    refine bind_ne_error (bind_ne_error ?_ fun _ => pure_ne_error _) fun _ => pure_ne_error _
    unfold validateReason
    cases row.reason with
    | none => simp
    | some code => exact check_ne_error (by simp [circuitOpen])
  | settled =>
    refine bind_ne_error rowReservationId_ne_open fun id => ?_
    refine bind_ne_error openState_ne_open fun state => ?_
    refine bind_ne_error ?_ fun _ => pure_ne_error _
    refine bind_ne_error (requiredNonnegativeInt_ne_open (by simp)) fun _ => ?_
    refine bind_ne_error (requiredNonnegativeInt_ne_open (by simp)) fun _ => ?_
    refine bind_ne_error (requiredNonnegativeInt_ne_open (by simp)) fun _ => ?_
    exact bind_ne_error (requiredNonnegativeInt_ne_open (by simp)) fun _ => pure_ne_error _

theorem usageTotals_ne_open (states : List ReservationState) : usageTotals states ≠ .error circuitOpen := by
  refine bind_ne_error (foldlM_ne_error (fun totals state => bind_ne_error ?_ fun _ => pure_ne_error _) _ _)
    fun _ => pure_ne_error _
  unfold stateUsage
  cases state.state with
  | abandoned => simp
  | reserved => simp
  | settled =>
    cases state.actualInputTokens <;> cases state.actualOutputTokens <;> cases state.actualCostMicrousd <;>
      simp [unauthorized, circuitOpen]

theorem appendLedgerEvent_ne_open {row : LedgerRow} : appendLedgerEvent t row ≠ .error circuitOpen := by
  unfold appendLedgerEvent bindInteger
  iterate 8 refine bind_ne_error (check_ne_error (by simp [circuitOpen])) fun _ => ?_
  exact bind_ne_error (check_ne_error (by simp [circuitOpen])) fun _ => pure_ne_error _

/-- A refusal in a chain that only one link can give is that link's, with the links before it passed. -/
private theorem refused_at {α β γ : Type} {e : ControlPlaneError} {before : Raises α} {link : Raises β}
    {after : β → Raises γ} (hbefore : before ≠ .error e) (hafter : ∀ b, after b ≠ .error e) :
    (before >>= fun _ => link >>= after) = .error e ↔ (∃ a, before = .ok a) ∧ link = .error e := by
  cases before with
  | error e' => simpa using hbefore
  | ok a =>
    cases link with
    | error e' => simp
    | ok b => simpa using hafter b

theorem preflight_chain {a : ModelExecutionAuthorization} {provider : ModelExecutionProviderBinding} {input output : Int}
    {pack : Option Digest} {request : Digest} :
    svc.preflight a provider input output pack request r leases t =
      (svc.admission a provider input output pack request r leases t >>= fun _ =>
        svc.assertProviderCircuitClosed t provider (r.now 2) >>= fun u => pure u) := by
  simp [AuthorityService.preflight, AuthorityService.admission, bind_assoc]

/-- After the circuit `reserve` only counts against the budget. -/
theorem reserve_chain {a : ModelExecutionAuthorization} {provider : ModelExecutionProviderBinding} {input output : Int}
    {pack : Option Digest} {request : Digest} :
    ∃ count : Unit → Raises (ModelExecutionReservation × AuthorityTables), (∀ u, count u ≠ .error circuitOpen) ∧
      svc.reserve a provider input output pack request r leases t =
        (svc.admission a provider input output pack request r leases t >>= fun _ =>
          svc.assertProviderCircuitClosed t provider (r.now 2) >>= count) := by
  refine ⟨?count, ?refuses, ?chain⟩
  case chain =>
    simp only [AuthorityService.reserve, AuthorityService.admission, bind_assoc]
    rfl
  case refuses =>
    intro u
    refine bind_ne_error (foldlM_ne_error applyRow_ne_open _ _) fun states => ?_
    refine bind_ne_error (usageTotals_ne_open states) fun totals => ?_
    refine bind_ne_error (check_ne_error (by simp [AuthorityService.exhausted, circuitOpen])) fun _ => ?_
    refine bind_ne_error ?_ fun _ => bind_ne_error ?_ fun reservation =>
      bind_ne_error appendLedgerEvent_ne_open fun _ => pure_ne_error _
    · unfold AuthorityService.checkBudget
      iterate 3 refine bind_ne_error (check_ne_error (by simp [AuthorityService.overBudget, circuitOpen])) fun _ => ?_
      exact check_ne_error (by simp [AuthorityService.overBudget, circuitOpen])
    · unfold AuthorityService.makeReservation
      split <;> simp [circuitOpen]

end

/-- The tables of the service after a run from an empty store. -/
abbrev AuthorityService.tablesAfter (svc : AuthorityService) (labels : List (AuthorityOp × AuthorityInput)) :
    AuthorityTables := (run (authorityStep svc) .empty labels).authority

/-- In every run the health ledger is the history of what the settled and abandoned
reservations say of their providers, and a request that passes the other admission checks is
refused for its provider circuit exactly when that history of the provider ends in at least
the threshold of failures and the cooldown after the latest of them has not passed. -/
theorem circuit_refusals_exact (svc : AuthorityService) (labels : List (AuthorityOp × AuthorityInput))
    (authorization : ModelExecutionAuthorization) (provider : ModelExecutionProviderBinding)
    (requestedInputTokens requestedOutputTokens : Int) (contextPackHash : Option Digest) (outboundRequestHash : Digest)
    (r : AuthorityReadings) (leases : LeaseTables)
    (hdistinct : ∀ event ∈ (svc.tablesAfter labels).health,
      svc.bindingHash event.binding = svc.bindingHash provider → event.binding = provider) :
    (svc.tablesAfter labels).health.map (fun event => (event.binding, event.failureCode)) =
        healthOutcomes (svc.tablesAfter labels) ∧
    (svc.preflight authorization provider requestedInputTokens requestedOutputTokens contextPackHash outboundRequestHash r
        leases (svc.tablesAfter labels) = .error circuitOpen ↔
      svc.admission authorization provider requestedInputTokens requestedOutputTokens contextPackHash outboundRequestHash r
          leases (svc.tablesAfter labels) = .ok () ∧
        svc.CircuitOpen (healthHistory (svc.tablesAfter labels) provider) (r.now 2)) ∧
    (svc.reserve authorization provider requestedInputTokens requestedOutputTokens contextPackHash outboundRequestHash r
        leases (svc.tablesAfter labels) = .error circuitOpen ↔
      svc.admission authorization provider requestedInputTokens requestedOutputTokens contextPackHash outboundRequestHash r
          leases (svc.tablesAfter labels) = .ok () ∧
        svc.CircuitOpen (healthHistory (svc.tablesAfter labels) provider) (r.now 2)) := by
  have hkept : HealthKept svc (svc.tablesAfter labels) := health_kept labels
  have hcircuit := assertProviderCircuitClosed_refuses hkept hdistinct (r.now 2)
  have hunit {x : Raises Unit} : (∃ u, x = .ok u) ↔ x = .ok () := ⟨fun ⟨_, h⟩ => h, fun h => ⟨(), h⟩⟩
  refine ⟨hkept.recorded, ?_, ?_⟩
  · rw [preflight_chain, refused_at admission_ne_open fun u => pure_ne_error u, hcircuit, hunit]
  · obtain ⟨count, hcount, hchain⟩ := @reserve_chain svc (svc.tablesAfter labels) r leases authorization provider
      requestedInputTokens requestedOutputTokens contextPackHash outboundRequestHash
    rw [hchain, refused_at admission_ne_open hcount, hcircuit, hunit]

/-- A service that opens a circuit at the first failure. -/
def failFastAuthority : AuthorityService :=
  { sampleAuthority with providerFailureThreshold := 1, threshold_bounded := by norm_num }

def hourCapability : ModelExecutionAuthorization where
  authorizationId := sampleId
  bundleId := sampleId
  bundleHash := sampleDigest
  contractId := sampleId
  revision := 1
  contractHash := sampleDigest
  environmentHash := sampleDigest
  lease := ⟨sampleId, ⟨"worker", by decide⟩, 1, ⟨3600000000, 0⟩, le_rfl⟩
  contextPackHash := sampleDigest
  requestHash := sampleDigest
  egressPolicy := ⟨sampleId, .restricted, .unknown, [], List.nodup_nil⟩
  approvalSnapshot := sampleApproval
  budget := ⟨2, 2, 2, 4, 4, by simp, by simp, by simp⟩
  issuedAt := ⟨0, 0⟩
  expiresAt := ⟨1800000000, 0⟩
  revision_pos := le_rfl
  expires_after_issue := by decide
  lease_bundle := rfl
  within_lease := by decide
  approval_enabled := rfl
  egress_permitted := rfl
  attestation := some hourAttestation
  attestation_purpose := by rintro _ ⟨rfl⟩; rfl

/-- The reservation of the first attempt. -/
def firstReservation : ModelExecutionReservation :=
  ⟨sampleId, sampleId, 1, 1, 1, 2, ⟨0, 0⟩, le_rfl, ⟨le_rfl, le_rfl⟩, by decide⟩

/-- One attempt is reserved and its probe fails. -/
def failedProbe : List (AuthorityOp × AuthorityInput) :=
  [.store (.claimLease sampleId.value "worker" 3600),
    .record hourCapability ⟨sampleId, "", sampleId, sampleDigest, hourCapability.budget, hourCapability.lease, sampleDigest,
      sampleDigest, 1800⟩ "issue",
    .reserve hourCapability sampleApproval.binding 1 1 (some sampleDigest) sampleDigest,
    .abandon firstReservation "probe_failed_v1"].map fun op => (op, (authorityStepOf .issuer).2)

/-- The reservation and its abandonment both return, and both have their rows at the end. -/
theorem budgets_kept_probed :
    Booked failFastAuthority (failFastAuthority.tablesAfter failedProbe)
        (.reserve hourCapability sampleApproval.binding 1 1 (some sampleDigest) sampleDigest) firstReservation ∧
      Booked failFastAuthority (failFastAuthority.tablesAfter failedProbe)
        (.abandon firstReservation "probe_failed_v1") () := by
  constructor
  · exact (budgets_kept failFastAuthority (failedProbe.take 2)).2
      (.reserve hourCapability sampleApproval.binding 1 1 (some sampleDigest) sampleDigest) (authorityStepOf .issuer).2
      firstReservation (by decide +kernel) (failedProbe.drop 3)
  · exact (budgets_kept failFastAuthority (failedProbe.take 3)).2 (.abandon firstReservation "probe_failed_v1")
      (authorityStepOf .issuer).2 () (by decide +kernel) []

theorem circuit_refusals_exact_failed :
    failFastAuthority.admission hourCapability sampleApproval.binding 1 1 (some sampleDigest) sampleDigest
        (authorityStepOf .issuer).2.readings (run (authorityStep failFastAuthority) .empty failedProbe).database.leases
        (failFastAuthority.tablesAfter failedProbe) = .ok () ∧
      failFastAuthority.CircuitOpen (healthHistory (failFastAuthority.tablesAfter failedProbe) sampleApproval.binding) 0 :=
  (circuit_refusals_exact failFastAuthority failedProbe hourCapability sampleApproval.binding 1 1 (some sampleDigest)
    sampleDigest (authorityStepOf .issuer).2.readings
    (run (authorityStep failFastAuthority) .empty failedProbe).database.leases (by decide +kernel)).2.1.mp
    (by decide +kernel)

end Autolean.ControlPlane
