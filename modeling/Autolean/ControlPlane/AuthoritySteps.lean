import Autolean.ControlPlane.ModelIssue
import Autolean.ControlPlane.Reservations

/-! The transactions of the authorization service that return: what each found in the tables, and
all that it left in them. -/
namespace Autolean.ControlPlane
open Contracts Machine Raising

variable {svc : AuthorityService} {t t' : AuthorityTables} {r : AuthorityReadings} {leases : LeaseTables}

/-! Rows -/

theorem appendLedgerEvent_ok {row : LedgerRow} (h : appendLedgerEvent t row = .ok t') :
    t' = { t with ledger := t.ledger ++ [row] } := by
  unfold appendLedgerEvent bindInteger at h
  obtain ⟨-, h⟩ := ensure_bind_eq_ok.mp h
  obtain ⟨-, h⟩ := ensure_bind_eq_ok.mp h
  obtain ⟨-, h⟩ := ensure_bind_eq_ok.mp h
  obtain ⟨-, h⟩ := ensure_bind_eq_ok.mp h
  obtain ⟨-, h⟩ := ensure_bind_eq_ok.mp h
  obtain ⟨-, h⟩ := ensure_bind_eq_ok.mp h
  obtain ⟨-, h⟩ := ensure_bind_eq_ok.mp h
  obtain ⟨-, h⟩ := ensure_bind_eq_ok.mp h
  obtain ⟨-, h⟩ := ensure_bind_eq_ok.mp h
  rw [pure_eq_ok] at h
  exact h.symm

theorem appendProviderHealthEvent_ok {row : HealthRow} (h : appendProviderHealthEvent t row = .ok t') :
    t' = { t with health := t.health ++ [row] } ∧
      ∀ failureCode ∈ row.failureCode, failureCode ∈ providerHealthFailureCodes := by
  unfold appendProviderHealthEvent at h
  obtain ⟨hcode, h⟩ := ensure_bind_eq_ok.mp h
  obtain ⟨-, h⟩ := ensure_bind_eq_ok.mp h
  rw [pure_eq_ok] at h
  exact ⟨h.symm, hcode⟩

theorem recordIdempotency_ok {scope key id : String} {digest : Digest}
    (h : recordIdempotency t scope key digest id = .ok t') :
    t.authorizationIdempotency (scope, key) = none ∧ t' = { t with
      authorizationIdempotency := Function.update t.authorizationIdempotency (scope, key) (some (digest, id)) } := by
  unfold recordIdempotency at h
  obtain ⟨hfree, h⟩ := ensure_bind_eq_ok.mp h
  rw [pure_eq_ok] at h
  exact ⟨Option.isNone_iff_eq_none.mp hfree, h.symm⟩

theorem storedAuthorization_ok {id : String} {a : ModelExecutionAuthorization}
    (h : svc.storedAuthorization t id = .ok a) : ∃ row, t.authorizations id = some row ∧ row.authorization = a := by
  unfold AuthorityService.storedAuthorization at h
  cases hr : t.authorizations id with
  | none => simp [hr, unauthorized] at h
  | some row =>
    simp only [hr] at h
    obtain ⟨-, h⟩ := ensure_bind_eq_ok.mp h
    rw [pure_eq_ok] at h
    exact ⟨row, rfl, h⟩

/-- A replay was recorded under its key for the same request. -/
theorem idempotentAuthorization_ok {scope key : String} {digest : Digest} {replay : Option ModelExecutionAuthorization}
    (h : svc.idempotentAuthorization t scope key digest = .ok replay) (hsome : replay.isSome = true) :
    ∃ id, t.authorizationIdempotency (scope, key) = some (digest, id) := by
  unfold AuthorityService.idempotentAuthorization at h
  cases hk : t.authorizationIdempotency (scope, key) with
  | none =>
    simp only [hk, Except.ok.injEq] at h
    subst h
    cases hsome
  | some recorded =>
    simp only [hk] at h
    obtain ⟨rfl, -⟩ := ensure_bind_eq_ok.mp h
    exact ⟨_, rfl⟩

theorem assertActive_ok {a : ModelExecutionAuthorization} {now leaseNow : Instant} {u : Unit}
    (h : AuthorityService.assertActive t leases a now leaseNow = .ok u) :
    ∀ row ∈ rowsOf t a.authorizationId.value, row.eventType ≠ .revoked := by
  unfold AuthorityService.assertActive at h
  obtain ⟨-, h⟩ := ensure_bind_eq_ok.mp h
  obtain ⟨hrevoked, -⟩ := ensure_bind_eq_ok.mp h
  unfold isRevoked at hrevoked
  intro row hrow
  simpa using List.any_eq_false.mp hrevoked row hrow

theorem matchingState_ok {reservation : ModelExecutionReservation} {states : List ReservationState} {id : String}
    {s : ReservationState} (h : AuthorityService.matchingState reservation (stateOf states id) = .ok s) :
    s ∈ states ∧ s.reservationId = id := by
  unfold AuthorityService.matchingState at h
  cases hs : stateOf states id with
  | none => simp [hs, unauthorized] at h
  | some s' =>
    simp only [hs] at h
    obtain ⟨-, h⟩ := ensure_bind_eq_ok.mp h
    rw [pure_eq_ok] at h
    exact h ▸ stateOf_mem hs

/-! `reserve` -/

/-- A reservation fits the budget on top of what the ledger holds, and its row is appended. -/
structure AuthorityService.Reserves (a : ModelExecutionAuthorization) (input output : Int)
    (reservation : ModelExecutionReservation) (r : AuthorityReadings) (t t' : AuthorityTables) : Prop where
  budgeted : ∃ stored states totals, t.authorizations a.authorizationId.value = some stored ∧ stored.authorization = a ∧
    reservationStates (rowsOf t a.authorizationId.value) = .ok states ∧ usageTotals states = .ok totals ∧
    totals.attempts < a.budget.maxAttempts ∧ reservation.attemptNumber = totals.attempts + 1 ∧
    AuthorityService.checkBudget a.budget totals input output (a.pricing.reservedCost input output) = .ok ()
  authorization : reservation.authorizationId = a.authorizationId
  inputTokens : reservation.reservedInputTokens = input
  outputTokens : reservation.reservedOutputTokens = output
  costMicrousd : reservation.reservedCostMicrousd = a.pricing.reservedCost input output
  appended : t' = { t with ledger := t.ledger ++ [AuthorityService.reservedRow reservation (r.uuid 1).text (r.now 4)] }

theorem AuthorityService.reserve_ok {a : ModelExecutionAuthorization} {provider : ModelExecutionProviderBinding}
    {input output : Int} {pack : Option Digest} {request : Digest} {reservation : ModelExecutionReservation}
    (h : svc.reserve a provider input output pack request r leases t = .ok (reservation, t')) :
    AuthorityService.Reserves a input output reservation r t t' := by
  unfold AuthorityService.reserve at h
  obtain ⟨-, -, h⟩ := bind_eq_ok.mp h
  obtain ⟨-, -, h⟩ := bind_eq_ok.mp h
  obtain ⟨stored, hstored, h⟩ := bind_eq_ok.mp h
  obtain ⟨rfl, h⟩ := ensure_bind_eq_ok.mp h
  obtain ⟨-, -, h⟩ := bind_eq_ok.mp h
  obtain ⟨-, -, h⟩ := bind_eq_ok.mp h
  obtain ⟨states, hstates, h⟩ := bind_eq_ok.mp h
  obtain ⟨totals, htotals, h⟩ := bind_eq_ok.mp h
  obtain ⟨hattempts, h⟩ := ensure_bind_eq_ok.mp h
  obtain ⟨_, hbudget, h⟩ := bind_eq_ok.mp h
  obtain ⟨made, hmade, h⟩ := bind_eq_ok.mp h
  obtain ⟨t₁, hrow, h⟩ := bind_eq_ok.mp h
  simp only [pure_eq_ok, Prod.mk.injEq] at h
  obtain ⟨rfl, rfl⟩ := h
  obtain ⟨row, hfound, hsame⟩ := storedAuthorization_ok hstored
  unfold AuthorityService.makeReservation at hmade
  split at hmade
  · cases hmade
    exact ⟨⟨row, states, totals, hfound, hsame, hstates, htotals, hattempts, rfl, hbudget⟩, rfl, rfl, rfl, rfl,
      appendLedgerEvent_ok hrow⟩
  · cases hmade

/-! `settle` and `abandon` -/

/-- The reservation that a settlement or an abandonment found in the ledger. -/
structure AuthorityService.Finds (reservation : ModelExecutionReservation) (t : AuthorityTables)
    (stored : AuthorizationRow) (states : List ReservationState) (s : ReservationState) : Prop where
  found : t.authorizations reservation.authorizationId.value = some stored
  read : reservationStates (rowsOf t stored.authorization.authorizationId.value) = .ok states
  mem : s ∈ states
  id : s.reservationId = reservation.reservationId.value

/-- A settlement finds the same usage recorded, or appends its row and a success of the provider. -/
inductive AuthorityService.Settles (svc : AuthorityService) (reservation : ModelExecutionReservation)
    (input cached output : Int) (r : AuthorityReadings) (stored : AuthorizationRow) (s : ReservationState)
    (t : AuthorityTables) : AuthorityTables → Prop
  | replayed : s.state = .settled → s.actualInputTokens = some input → s.actualOutputTokens = some output →
      svc.Settles reservation input cached output r stored s t t
  | appended : s.state = .reserved → input ≤ s.reservedInputTokens → output ≤ s.reservedOutputTokens →
      stored.authorization.pricing.usageCost input cached output ≤ s.reservedCostMicrousd →
      svc.Settles reservation input cached output r stored s t { t with
        ledger := t.ledger ++ [AuthorityService.settledRow reservation stored.authorization.authorizationId.value
          input cached output (stored.authorization.pricing.usageCost input cached output) (r.uuid 0).text (r.now 2)]
        health := t.health ++ [svc.healthRow stored.authorization reservation none (r.uuid 1).text (r.now 3)] }

theorem AuthorityService.settle_ok {reservation : ModelExecutionReservation} {input cached output : Int}
    (h : svc.settle reservation input cached output r leases t = .ok t') :
    ∃ stored states s, AuthorityService.Finds reservation t stored states s ∧
      (∀ row ∈ rowsOf t stored.authorization.authorizationId.value, row.eventType ≠ .revoked) ∧
      svc.Settles reservation input cached output r stored s t t' := by
  unfold AuthorityService.settle at h
  obtain ⟨-, h⟩ := ensure_bind_eq_ok.mp h
  obtain ⟨-, h⟩ := ensure_bind_eq_ok.mp h
  obtain ⟨a, hstored, h⟩ := bind_eq_ok.mp h
  obtain ⟨-, -, h⟩ := bind_eq_ok.mp h
  obtain ⟨_, hactive, h⟩ := bind_eq_ok.mp h
  obtain ⟨states, hstates, h⟩ := bind_eq_ok.mp h
  obtain ⟨s, hs, h⟩ := bind_eq_ok.mp h
  obtain ⟨hmem, hid⟩ := matchingState_ok hs
  obtain ⟨row, hfound, rfl⟩ := storedAuthorization_ok hstored
  refine ⟨row, states, s, ⟨hfound, hstates, hmem, hid⟩, assertActive_ok hactive, ?_⟩
  cases hstate : s.state with
  | settled =>
    simp only [hstate] at h
    obtain ⟨⟨hinput, -, houtput⟩, h⟩ := ensure_bind_eq_ok.mp h
    rw [pure_eq_ok] at h
    subst h
    exact .replayed hstate hinput houtput
  | abandoned => simp [hstate, unauthorized] at h
  | reserved =>
    simp only [hstate] at h
    obtain ⟨⟨hile, hole, hcle⟩, h⟩ := ensure_bind_eq_ok.mp h
    obtain ⟨t₁, hrow, h⟩ := bind_eq_ok.mp h
    obtain rfl := appendLedgerEvent_ok hrow
    obtain ⟨rfl, -⟩ := appendProviderHealthEvent_ok h
    exact .appended hstate hile hole hcle

/-- An abandonment finds the reservation closed, or appends its row and, for some codes, a failure
of the provider. -/
inductive AuthorityService.Abandons (svc : AuthorityService) (reservation : ModelExecutionReservation)
    (failureCode : String) (r : AuthorityReadings) (stored : AuthorizationRow) (s : ReservationState)
    (t : AuthorityTables) : AuthorityTables → Prop
  | closed : s.state ≠ .reserved → svc.Abandons reservation failureCode r stored s t t
  | observed : s.state = .reserved → failureCode ∈ providerHealthFailureCodes →
      svc.Abandons reservation failureCode r stored s t { t with
        ledger := t.ledger ++ [AuthorityService.abandonedRow reservation
          stored.authorization.authorizationId.value failureCode (r.uuid 0).text (r.now 0)]
        health := t.health ++
          [svc.healthRow stored.authorization reservation (some failureCode) (r.uuid 1).text (r.now 1)] }
  | silent : s.state = .reserved → failureCode ∉ providerHealthFailureCodes →
      svc.Abandons reservation failureCode r stored s t { t with
        ledger := t.ledger ++ [AuthorityService.abandonedRow reservation
          stored.authorization.authorizationId.value failureCode (r.uuid 0).text (r.now 0)] }

theorem AuthorityService.abandon_ok {reservation : ModelExecutionReservation} {failureCode : String}
    (h : svc.abandon reservation failureCode r t = .ok t') :
    ∃ stored states s, AuthorityService.Finds reservation t stored states s ∧
      svc.Abandons reservation failureCode r stored s t t' := by
  unfold AuthorityService.abandon at h
  obtain ⟨-, -, h⟩ := bind_eq_ok.mp h
  obtain ⟨a, hstored, h⟩ := bind_eq_ok.mp h
  obtain ⟨states, hstates, h⟩ := bind_eq_ok.mp h
  obtain ⟨s, hs, h⟩ := bind_eq_ok.mp h
  obtain ⟨hmem, hid⟩ := matchingState_ok hs
  obtain ⟨row, hfound, rfl⟩ := storedAuthorization_ok hstored
  refine ⟨row, states, s, ⟨hfound, hstates, hmem, hid⟩, ?_⟩
  cases hstate : s.state with
  | settled =>
    simp only [hstate, pure_eq_ok] at h
    subst h
    exact .closed (by simp [hstate])
  | abandoned =>
    simp only [hstate] at h
    obtain ⟨-, h⟩ := ensure_bind_eq_ok.mp h
    rw [pure_eq_ok] at h
    subst h
    exact .closed (by simp [hstate])
  | reserved =>
    simp only [hstate] at h
    obtain ⟨t₁, hrow, h⟩ := bind_eq_ok.mp h
    obtain rfl := appendLedgerEvent_ok hrow
    by_cases hcode : failureCode ∈ providerHealthFailureCodes
    · rw [if_pos hcode] at h
      obtain ⟨rfl, -⟩ := appendProviderHealthEvent_ok h
      exact .observed hstate hcode
    · rw [if_neg hcode, pure_eq_ok] at h
      subst h
      exact .silent hstate hcode

/-! `revoke` -/

/-- A revocation finds its request recorded, or records it with the first revoked row. -/
inductive AuthorityService.Revokes (svc : AuthorityService) (id : StableIdentifier) (reason key : String)
    (r : AuthorityReadings) (t : AuthorityTables) : AuthorityTables → Prop
  | replayed (recorded : String) :
      t.authorizationIdempotency (AuthorityService.revokeScope, key) =
        some (svc.revocationRequestHash id.value reason, recorded) →
      svc.Revokes id reason key r t t
  | keyed : isRevoked t id.value = true → svc.Revokes id reason key r t { t with
      authorizationIdempotency := Function.update t.authorizationIdempotency (AuthorityService.revokeScope, key)
        (some (svc.revocationRequestHash id.value reason, id.value)) }
  | appended (stored : AuthorizationRow) : t.authorizations id.value = some stored →
      svc.Revokes id reason key r t { t with
        ledger := t.ledger ++ [AuthorityService.revokedRow id.value reason (r.uuid 0).text (r.now 0)]
        authorizationIdempotency := Function.update t.authorizationIdempotency (AuthorityService.revokeScope, key)
          (some (svc.revocationRequestHash id.value reason, id.value)) }

theorem AuthorityService.revoke_ok {id : StableIdentifier} {reason key : String}
    (h : svc.revoke id reason key r t = .ok t') : svc.Revokes id reason key r t t' := by
  unfold AuthorityService.revoke at h
  obtain ⟨-, h⟩ := ensure_bind_eq_ok.mp h
  obtain ⟨-, h⟩ := ensure_bind_eq_ok.mp h
  obtain ⟨replay, hreplay, h⟩ := bind_eq_ok.mp h
  split at h
  · rename_i hsome
    rw [pure_eq_ok] at h
    subst h
    obtain ⟨recorded, hrecorded⟩ := idempotentAuthorization_ok hreplay hsome
    exact .replayed recorded hrecorded
  · obtain ⟨a, hstored, h⟩ := bind_eq_ok.mp h
    obtain ⟨t₁, hrow, h⟩ := bind_eq_ok.mp h
    obtain ⟨-, rfl⟩ := recordIdempotency_ok h
    unfold AuthorityService.revokeOnce at hrow
    split at hrow
    · rename_i hrevoked
      cases hrow
      exact .keyed hrevoked
    · obtain rfl := appendLedgerEvent_ok hrow
      obtain ⟨stored, hfound, -⟩ := storedAuthorization_ok hstored
      exact .appended stored hfound

/-! `record` and `register_operator_approval` -/

/-- The recording transaction of an issue finds its request recorded, or records it under a free
key, with the authorization where its ID is free. -/
inductive AuthorityService.Records (a : ModelExecutionAuthorization) (key : String) (t : AuthorityTables) :
    AuthorityTables → Prop
  | replayed : AuthorityService.Records a key t t
  | keyed (digest : Digest) (id : String) : t.authorizationIdempotency (AuthorityService.issueScope, key) = none →
      AuthorityService.Records a key t { t with
        authorizationIdempotency := Function.update t.authorizationIdempotency (AuthorityService.issueScope, key)
          (some (digest, id)) }
  | inserted (digest : Digest) (id : String) (row : AuthorizationRow) :
      t.authorizationIdempotency (AuthorityService.issueScope, key) = none →
      t.authorizations a.authorizationId.value = none → row.authorization = a →
      AuthorityService.Records a key t { t with
        authorizations := Function.update t.authorizations a.authorizationId.value (some row)
        authorizationIdempotency := Function.update t.authorizationIdempotency (AuthorityService.issueScope, key)
          (some (digest, id)) }

theorem AuthorityService.record_ok {a a' : ModelExecutionAuthorization} {request : IssueRequest} {key : String}
    (h : svc.record a request key t = .ok (a', t')) : AuthorityService.Records a key t t' := by
  unfold AuthorityService.record at h
  obtain ⟨replay, -, h⟩ := bind_eq_ok.mp h
  cases replay with
  | some stored =>
    simp only [pure_eq_ok, Prod.mk.injEq] at h
    obtain ⟨-, rfl⟩ := h
    exact .replayed
  | none =>
    cases hr : t.authorizations a.authorizationId.value with
    | some row =>
      simp only [hr] at h
      obtain ⟨-, h⟩ := ensure_bind_eq_ok.mp h
      obtain ⟨stored, -, h⟩ := bind_eq_ok.mp h
      obtain ⟨t₁, hkey, h⟩ := bind_eq_ok.mp h
      simp only [pure_eq_ok, Prod.mk.injEq] at h
      obtain ⟨-, rfl⟩ := h
      obtain ⟨hfree, rfl⟩ := recordIdempotency_ok hkey
      exact .keyed _ _ hfree
    | none =>
      simp only [hr] at h
      obtain ⟨t₁, hkey, h⟩ := bind_eq_ok.mp h
      simp only [pure_eq_ok, Prod.mk.injEq] at h
      obtain ⟨-, rfl⟩ := h
      obtain ⟨hfree, rfl⟩ := recordIdempotency_ok hkey
      exact .inserted _ _ ⟨_, a, _⟩ hfree hr rfl

/-- A registration of an approval touches the approvals only. -/
theorem AuthorityService.registerOperatorApproval_ok {approval approval' : ModelExecutionProviderApproval}
    {key : String} (h : svc.registerOperatorApproval approval key t = .ok (approval', t')) :
    ∃ approvals keys, t' = { t with providerApprovals := approvals, approvalIdempotency := keys } := by
  have recorded {t₀ t₁ : AuthorityTables} {digest : Digest} {id : String}
      (hk : AuthorityService.recordApprovalKey t₀ key digest id = .ok t₁) :
      ∃ keys, t₁ = { t₀ with approvalIdempotency := keys } := by
    unfold AuthorityService.recordApprovalKey at hk
    obtain ⟨-, hk⟩ := ensure_bind_eq_ok.mp hk
    rw [pure_eq_ok] at hk
    exact ⟨_, hk.symm⟩
  unfold AuthorityService.registerOperatorApproval at h
  obtain ⟨-, h⟩ := ensure_bind_eq_ok.mp h
  obtain ⟨-, h⟩ := ensure_bind_eq_ok.mp h
  obtain ⟨replay, -, h⟩ := bind_eq_ok.mp h
  cases replay with
  | some stored =>
    simp only [pure_eq_ok, Prod.mk.injEq] at h
    obtain ⟨-, rfl⟩ := h
    exact ⟨_, _, rfl⟩
  | none =>
    cases hr : t.providerApprovals approval.approvalId.value with
    | some row =>
      simp only [hr] at h
      obtain ⟨-, h⟩ := ensure_bind_eq_ok.mp h
      obtain ⟨stored, -, h⟩ := bind_eq_ok.mp h
      obtain ⟨t₁, hkey, h⟩ := bind_eq_ok.mp h
      simp only [pure_eq_ok, Prod.mk.injEq] at h
      obtain ⟨-, rfl⟩ := h
      obtain ⟨keys, rfl⟩ := recorded hkey
      exact ⟨_, keys, rfl⟩
    | none =>
      simp only [hr] at h
      obtain ⟨t₁, hkey, h⟩ := bind_eq_ok.mp h
      simp only [pure_eq_ok, Prod.mk.injEq] at h
      obtain ⟨-, rfl⟩ := h
      obtain ⟨keys, rfl⟩ := recorded hkey
      exact ⟨_, keys, rfl⟩

/-! Commits -/

theorem committed_ok {α : Type} {x : Raises (α × AuthorityTables)} {w : AuthorityWorld} {a : α}
    (h : (AuthorityService.committed x w).1 = .ok a) : x = .ok (a, (AuthorityService.committed x w).2.authority) := by
  cases x with
  | error e => cases h
  | ok at' =>
    obtain rfl := Except.ok.inj h
    rfl

theorem changed_ok {x : Raises AuthorityTables} {a : Unit} {t : AuthorityTables}
    (h : AuthorityService.changed x = .ok (a, t)) : x = .ok t := by
  obtain ⟨t', hx, hp⟩ := bind_eq_ok.mp h
  simp only [pure_eq_ok, Prod.mk.injEq, true_and] at hp
  exact hp ▸ hx

/-- What holds of the tables before a transaction and of those it returns holds after its commit. -/
theorem committed_keeps {α : Type} {P : AuthorityTables → Prop} {x : Raises (α × AuthorityTables)} {w : AuthorityWorld}
    (hw : P w.authority) (h : ∀ a t, x = .ok (a, t) → P t) : P (AuthorityService.committed x w).2.authority := by
  cases x with
  | error e => exact hw
  | ok at' => exact h at'.1 at'.2 rfl

theorem changed_keeps {P : AuthorityTables → Prop} {x : Raises AuthorityTables} {w : AuthorityWorld}
    (hw : P w.authority) (h : ∀ t, x = .ok t → P t) :
    P (AuthorityService.committed (AuthorityService.changed x) w).2.authority :=
  committed_keeps hw fun _ t hx => h t (changed_ok hx)

end Autolean.ControlPlane
