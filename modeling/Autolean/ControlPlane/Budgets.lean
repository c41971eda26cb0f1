import Autolean.ControlPlane.AuthoritySteps

/-! The budget of a capability over whole runs. Every row the service appends is admissible
against the rows before it, and admissible rows keep every sum within the budget. -/
namespace Autolean.ControlPlane
open Contracts Machine Raising

/-- What the ledger rows of one authorization keep to. -/
structure WithinBudget (budget : ModelExecutionBudget) (rows : List LedgerRow) : Prop where
  input : usedInput rows ≤ budget.maxInputTokens
  output : usedOutput rows ≤ budget.maxOutputTokens
  total : usedInput rows + usedOutput rows ≤ budget.maxTotalTokens
  cost : usedCost rows ≤ budget.maxCostMicrousd
  attempts : (reservations rows).length ≤ budget.maxAttempts
  attempt_numbers : (reservations rows).map (·.1.attemptNumber) =
    (List.range (reservations rows).length).map fun n => some ((n : Int) + 1)
  terminal_once : ClosedOnce LedgerRow.opens LedgerRow.closes rows
  no_settlement_after_revocation : ∀ before row after, rows = before ++ row :: after → row.eventType = .revoked →
    ∀ later ∈ after, later.eventType ≠ .settled

/-- A row the service may append to the rows of one authorization. -/
inductive Admissible (budget : ModelExecutionBudget) (rows : List LedgerRow) (row : LedgerRow) : Prop
  | reserved (input output cost : Int) : row.eventType = .reserved →
      row.attemptNumber = some ((reservations rows).length + 1) → row.reservedInputTokens = some input →
      row.reservedOutputTokens = some output → row.reservedCostMicrousd = some cost →
      (reservations rows).length < budget.maxAttempts → usedInput rows + input ≤ budget.maxInputTokens →
      usedOutput rows + output ≤ budget.maxOutputTokens →
      usedInput rows + usedOutput rows + input + output ≤ budget.maxTotalTokens →
      usedCost rows + cost ≤ budget.maxCostMicrousd → Admissible budget rows row
  | settled (states : List ReservationState) (s : ReservationState) (input output cost : Int) :
      reservationStates rows = .ok states → s ∈ states → s.state = .reserved →
      row.eventType = .settled → row.reservationId = some s.reservationId → row.actualInputTokens = some input →
      row.actualOutputTokens = some output → row.actualCostMicrousd = some cost → input ≤ s.reservedInputTokens →
      output ≤ s.reservedOutputTokens → cost ≤ s.reservedCostMicrousd → (∀ r ∈ rows, r.eventType ≠ .revoked) →
      Admissible budget rows row
  | abandoned (states : List ReservationState) (s : ReservationState) : reservationStates rows = .ok states →
      s ∈ states → s.state = .reserved → row.eventType = .abandoned → row.reservationId = some s.reservationId →
      Admissible budget rows row
  | revoked : row.eventType = .revoked → Admissible budget rows row

section
variable {budget : ModelExecutionBudget} {rows : List LedgerRow} {row : LedgerRow}

theorem nil_withinBudget (budget : ModelExecutionBudget) : WithinBudget budget [] where
  input := by simp [usedInput, used, matched]
  output := by simp [usedOutput, used, matched]
  total := by simp [usedInput, usedOutput, used, matched]
  cost := by simp [usedCost, used, matched]
  attempts := by simp [matched]
  attempt_numbers := by simp [matched]
  terminal_once := by
    intro before x after h
    simp at h
  no_settlement_after_revocation := by
    intro before r after h
    simp at h

/-- A reservation that stays reserved or closed counts what it counted. -/
private theorem used_concat_reserved (reserved actual : LedgerRow → Option Int) (h : row.eventType = .reserved) :
    used reserved actual (rows ++ [row]) = used reserved actual rows + (reserved row).getD 0 := by
  rw [used, reservations_concat_of_not_closes (by simp [h])]
  simp [used, LedgerRow.opens, h, charged]

private theorem reservations_concat_revoked (h : row.eventType = .revoked) :
    reservations (rows ++ [row]) = reservations rows := by
  rw [reservations_concat_of_not_closes (by simp [h])]
  simp [LedgerRow.opens, h]

private theorem reservations_concat_terminal (h : row.eventType = .settled ∨ row.eventType = .abandoned) :
    reservations (rows ++ [row]) = (reservations rows).map (closeWith LedgerRow.closes row) := by
  have hopens : row.opens = false := by
    unfold LedgerRow.opens
    rcases h with h | h <;> simp [h]
  rw [reservations, matched_concat, hopens]
  simp

/-- The state of a reservation in the list. -/
private theorem tracked {es : List (LedgerRow × Option LedgerRow)} {states : List ReservationState}
    (h : List.Forall₂ Tracks es states) {e : LedgerRow × Option LedgerRow} (he : e ∈ es) :
    ∃ s ∈ states, Tracks e s := by
  induction h with
  | nil => simp at he
  | cons ht _ ih =>
    rcases List.mem_cons.mp he with rfl | he
    · exact ⟨_, List.mem_cons_self, ht⟩
    · obtain ⟨s, hs, ht⟩ := ih he
      exact ⟨s, List.mem_cons_of_mem _ hs, ht⟩

/-- The reservation of a state in the list. -/
private theorem tracking {es : List (LedgerRow × Option LedgerRow)} {states : List ReservationState}
    (h : List.Forall₂ Tracks es states) {s : ReservationState} (hs : s ∈ states) : ∃ e ∈ es, Tracks e s := by
  induction h with
  | nil => simp at hs
  | cons ht _ ih =>
    rcases List.mem_cons.mp hs with rfl | hs
    · exact ⟨_, List.mem_cons_self, ht⟩
    · obtain ⟨e, he, ht⟩ := ih hs
      exact ⟨e, List.mem_cons_of_mem _ he, ht⟩

/-- The reservation a terminal row closes is the open one of its state. -/
private theorem closed_open {states : List ReservationState} {s : ReservationState}
    (hstates : reservationStates rows = .ok states) (hs : s ∈ states) (hopen : s.state = .reserved)
    (hid : row.reservationId = some s.reservationId) {e : LedgerRow × Option LedgerRow} (he : e ∈ reservations rows)
    (hcl : e.1.closes row = true) : e.2 = none ∧ Tracks e s := by
  obtain ⟨htracks, hnodup⟩ := reservationStates_tracks hstates
  obtain ⟨s', hs', ht⟩ := tracked htracks he
  have hsame : s'.reservationId = s.reservationId := by
    have hcl' : row.reservationId = e.1.reservationId := by
      unfold LedgerRow.closes at hcl
      exact (of_decide_eq_true hcl).1
    rw [hid, ht.id, Option.some.injEq] at hcl'
    exact hcl'.symm
  obtain rfl : s' = s := List.inj_on_of_nodup_map hnodup hs' hs hsame
  refine ⟨?_, ht⟩
  obtain ⟨opened, terminal⟩ := e
  cases ht.stands with
  | reserved _ => rfl
  | settled _ _ _ _ _ h => simp [hopen] at h
  | abandoned _ _ h => simp [hopen] at h

/-- A terminal row that charges its reservation no more than was reserved lowers the sum. -/
private theorem used_concat_terminal (reserved actual : LedgerRow → Option Int)
    (hrow : row.eventType = .settled ∨ row.eventType = .abandoned)
    (hle : ∀ e ∈ reservations rows, e.1.closes row = true →
      charged reserved actual (e.1, some row) ≤ charged reserved actual e) :
    used reserved actual (rows ++ [row]) ≤ used reserved actual rows := by
  unfold used
  rw [reservations_concat_terminal hrow, List.map_map]
  apply List.sum_le_sum
  intro e he
  simp only [Function.comp]
  by_cases hcl : e.1.closes row = true
  · by_cases hopen : e.2 = none
    · rw [closeWith_of_open hopen hcl]
      exact hle e he hcl
    · rw [closeWith_of_closed hopen]
  · rw [closeWith_of_not_closes (by simpa using hcl)]

private theorem no_settlement_concat
    (h : ∀ before row after, rows = before ++ row :: after → row.eventType = .revoked →
      ∀ later ∈ after, later.eventType ≠ .settled)
    (hrow : row.eventType = .settled → ∀ r ∈ rows, r.eventType ≠ .revoked) :
    ∀ before r after, rows ++ [row] = before ++ r :: after → r.eventType = .revoked →
      ∀ later ∈ after, later.eventType ≠ .settled := by
  intro before r after hl hr later hlater
  rcases List.eq_nil_or_concat after with rfl | ⟨rest, last, rfl⟩
  · simp at hlater
  · rw [List.concat_eq_append, ← List.cons_append, ← List.append_assoc] at hl
    obtain ⟨rfl, hlast⟩ := List.append_inj' hl rfl
    obtain rfl : row = last := by simpa using hlast
    rw [List.concat_eq_append] at hlater
    rcases List.mem_append.mp hlater with hlater | hlater
    · exact h before r rest rfl hr later hlater
    · rw [List.mem_singleton.mp hlater]
      intro hsettled
      exact hrow hsettled r (by simp) hr

/-- A terminal row for an open reservation, when it lowers the sums. -/
private theorem WithinBudget.terminal (h : WithinBudget budget rows) {states : List ReservationState} {s : ReservationState}
    (hstates : reservationStates rows = .ok states) (hs : s ∈ states) (hopen : s.state = .reserved)
    (hrow : row.eventType = .settled ∨ row.eventType = .abandoned) (hid : row.reservationId = some s.reservationId)
    (hrevoked : row.eventType = .settled → ∀ r ∈ rows, r.eventType ≠ .revoked)
    (hle : ∀ e : LedgerRow × Option LedgerRow, e.2 = none → Tracks e s →
      charged (·.reservedInputTokens) (·.actualInputTokens) (e.1, some row) ≤
        charged (·.reservedInputTokens) (·.actualInputTokens) e ∧
      charged (·.reservedOutputTokens) (·.actualOutputTokens) (e.1, some row) ≤
        charged (·.reservedOutputTokens) (·.actualOutputTokens) e ∧
      charged (·.reservedCostMicrousd) (·.actualCostMicrousd) (e.1, some row) ≤
        charged (·.reservedCostMicrousd) (·.actualCostMicrousd) e) : WithinBudget budget (rows ++ [row]) := by
  have hclosed {e : LedgerRow × Option LedgerRow} (he : e ∈ reservations rows) (hcl : e.1.closes row = true) :=
    closed_open hstates hs hopen hid he hcl
  have hinput : usedInput (rows ++ [row]) ≤ usedInput rows :=
    used_concat_terminal _ _ hrow fun e he hcl => (hle e (hclosed he hcl).1 (hclosed he hcl).2).1
  have houtput : usedOutput (rows ++ [row]) ≤ usedOutput rows :=
    used_concat_terminal _ _ hrow fun e he hcl => (hle e (hclosed he hcl).1 (hclosed he hcl).2).2.1
  have hcost : usedCost (rows ++ [row]) ≤ usedCost rows :=
    used_concat_terminal _ _ hrow fun e he hcl => (hle e (hclosed he hcl).1 (hclosed he hcl).2).2.2
  have hlength : (reservations (rows ++ [row])).length = (reservations rows).length := by
    rw [reservations_concat_terminal hrow, List.length_map]
  have hnumbers : (reservations (rows ++ [row])).map (·.1.attemptNumber) =
      (reservations rows).map (·.1.attemptNumber) := by
    rw [reservations_concat_terminal hrow, List.map_map]
    rfl
  refine ⟨hinput.trans h.input, houtput.trans h.output, (add_le_add hinput houtput).trans h.total, hcost.trans h.cost,
    ?_, ?_, ?_, ?_⟩
  · rw [hlength]
    exact h.attempts
  · rw [hnumbers, hlength]
    exact h.attempt_numbers
  · exact h.terminal_once.concat fun e he hcl => (hclosed he hcl).1
  · exact no_settlement_concat h.no_settlement_after_revocation hrevoked

/-- An admissible row keeps the reservations of the authorization within its budget. -/
theorem WithinBudget.concat (h : WithinBudget budget rows) (ha : Admissible budget rows row) :
    WithinBudget budget (rows ++ [row]) := by
  have unsettled (hrow : row.eventType ≠ .settled ∧ row.eventType ≠ .abandoned) :
      ClosedOnce LedgerRow.opens LedgerRow.closes (rows ++ [row]) :=
    h.terminal_once.concat fun e _ hcl => by simp [LedgerRow.not_closes hrow] at hcl
  cases ha with
  | reserved input output cost ht hn hi ho hc hmax hin hout htot hcost =>
    have hinput : usedInput (rows ++ [row]) = usedInput rows + input := by
      rw [usedInput, used_concat_reserved _ _ ht, hi, Option.getD_some]
    have houtput : usedOutput (rows ++ [row]) = usedOutput rows + output := by
      rw [usedOutput, used_concat_reserved _ _ ht, ho, Option.getD_some]
    have hspent : usedCost (rows ++ [row]) = usedCost rows + cost := by
      rw [usedCost, used_concat_reserved _ _ ht, hc, Option.getD_some]
    have hres : reservations (rows ++ [row]) = reservations rows ++ [(row, none)] := by
      rw [reservations_concat_of_not_closes (by simp [ht])]
      simp [LedgerRow.opens, ht]
    refine ⟨hinput ▸ hin, houtput ▸ hout, ?_, hspent ▸ hcost, ?_, ?_, unsettled (by simp [ht]), ?_⟩
    · rw [hinput, houtput]
      omega
    · rw [hres, List.length_append]
      exact hmax
    · rw [hres, List.map_append, List.length_append, h.attempt_numbers]
      simp [List.range_succ, hn]
    · exact no_settlement_concat h.no_settlement_after_revocation (by simp [ht])
  | settled states s input output cost hstates hs hopen ht hid hi ho hc hile hole hcle hrevoked =>
    refine h.terminal hstates hs hopen (.inl ht) hid (fun _ => hrevoked) ?_
    rintro ⟨opened, terminal⟩ rfl htr
    have hin := htr.input
    have hout := htr.output
    have hcost := htr.cost
    simp only at hin hout hcost
    simp [charged, ht, hi, ho, hc, hin, hout, hcost, hile, hole, hcle]
  | abandoned states s hstates hs hopen ht hid =>
    refine h.terminal hstates hs hopen (.inr ht) hid (by simp [ht]) ?_
    rintro ⟨opened, terminal⟩ rfl htr
    have hin := htr.input
    have hout := htr.output
    have hcost := htr.cost
    have hinp := htr.input_pos
    have houtp := htr.output_pos
    have hcostp := htr.cost_nonneg
    simp only at hin hout hcost
    simp only [charged, ht, hin, hout, hcost, Option.getD_some, reduceCtorEq, if_false]
    omega
  | revoked ht =>
    have hres : reservations (rows ++ [row]) = reservations rows := reservations_concat_revoked ht
    refine ⟨?_, ?_, ?_, ?_, ?_, ?_, unsettled (by simp [ht]), ?_⟩
    · simpa [usedInput, used, hres] using h.input
    · simpa [usedOutput, used, hres] using h.output
    · simpa [usedInput, usedOutput, used, hres] using h.total
    · simpa [usedCost, used, hres] using h.cost
    · rw [hres]
      exact h.attempts
    · rw [hres]
      exact h.attempt_numbers
    · exact no_settlement_concat h.no_settlement_after_revocation (by simp [ht])

end

/-! What one transaction does to the ledger -/

/-- A transaction leaves the ledger or appends one row that is admissible under the
authorization stored for it. -/
inductive LedgerMoves (t t' : AuthorityTables) : Prop
  | stay : t'.authorizations = t.authorizations → t'.ledger = t.ledger → LedgerMoves t t'
  | appended (id : String) (a : AuthorizationRow) (row : LedgerRow) : t.authorizations id = some a →
      row.authorizationId = id ∨ row.authorizationId = a.authorization.authorizationId.value →
      Admissible a.authorization.budget (rowsOf t row.authorizationId) row → t'.authorizations = t.authorizations →
      t'.ledger = t.ledger ++ [row] → LedgerMoves t t'

theorem LedgerMoves.authorizations {t t' : AuthorityTables} (h : LedgerMoves t t') :
    t'.authorizations = t.authorizations := by
  cases h with
  | stay hauth _ => exact hauth
  | appended _ _ _ _ _ _ hauth _ => exact hauth

/-- A transaction records the authorization under its own, free ID and a free key. -/
structure Grants (a : ModelExecutionAuthorization) (key : String) (t t' : AuthorityTables) : Prop where
  key_free : t.authorizationIdempotency (AuthorityService.issueScope, key) = none
  id_free : t.authorizations a.authorizationId.value = none
  inserted : ∃ row, row.authorization = a ∧
    t'.authorizations = Function.update t.authorizations a.authorizationId.value (some row)
  ledger : t'.ledger = t.ledger

section
variable {svc : AuthorityService} {t t' : AuthorityTables} {r : AuthorityReadings} {leases : LeaseTables}

theorem reserve_moves {a : ModelExecutionAuthorization} {provider : ModelExecutionProviderBinding} {input output : Int}
    {pack : Option Digest} {request : Digest} {reservation : ModelExecutionReservation}
    (h : svc.reserve a provider input output pack request r leases t = .ok (reservation, t')) : LedgerMoves t t' := by
  obtain ⟨⟨stored, states, totals, hfound, rfl, hstates, htotals, hattempts, hnumber, hbudget⟩, hid, rfl, rfl, hcost, rfl⟩ :=
    AuthorityService.reserve_ok h
  rw [usageTotals_tracks (reservationStates_tracks hstates).1, Except.ok.injEq] at htotals
  subst htotals
  rw [← hcost] at hbudget
  unfold AuthorityService.checkBudget at hbudget
  obtain ⟨hin, hbudget⟩ := ensure_bind_eq_ok.mp hbudget
  obtain ⟨hout, hbudget⟩ := ensure_bind_eq_ok.mp hbudget
  obtain ⟨htot, hbudget⟩ := ensure_bind_eq_ok.mp hbudget
  have hrow : (AuthorityService.reservedRow reservation (r.uuid 1).text (r.now 4)).authorizationId =
      stored.authorization.authorizationId.value := congrArg StableIdentifier.value hid
  refine .appended _ stored _ hfound (.inl hrow) ?_ rfl rfl
  rw [hrow]
  exact .reserved _ _ _ rfl (congrArg some hnumber) rfl rfl rfl hattempts hin hout htot (ensure_eq_ok.mp hbudget)

theorem settle_moves {reservation : ModelExecutionReservation} {input cached output : Int}
    (h : svc.settle reservation input cached output r leases t = .ok t') : LedgerMoves t t' := by
  obtain ⟨stored, states, s, hs, hactive, hsettles⟩ := AuthorityService.settle_ok h
  cases hsettles with
  | replayed => exact .stay rfl rfl
  | appended hopen hile hole hcle =>
    refine .appended _ stored _ hs.found (.inr rfl) ?_ rfl rfl
    exact .settled states s _ _ _ hs.read hs.mem hopen rfl (congrArg some hs.id.symm) rfl rfl rfl hile hole hcle hactive

theorem abandon_moves {reservation : ModelExecutionReservation} {failureCode : String}
    (h : svc.abandon reservation failureCode r t = .ok t') : LedgerMoves t t' := by
  obtain ⟨stored, states, s, hs, habandons⟩ := AuthorityService.abandon_ok h
  have hadm (hopen : s.state = .reserved) : Admissible stored.authorization.budget
      (rowsOf t stored.authorization.authorizationId.value) (AuthorityService.abandonedRow reservation
        stored.authorization.authorizationId.value failureCode (r.uuid 0).text (r.now 0)) :=
    .abandoned states s hs.read hs.mem hopen rfl (congrArg some hs.id.symm)
  cases habandons with
  | closed => exact .stay rfl rfl
  | observed hopen => exact .appended _ stored _ hs.found (.inr rfl) (hadm hopen) rfl rfl
  | silent hopen => exact .appended _ stored _ hs.found (.inr rfl) (hadm hopen) rfl rfl

theorem revoke_moves {id : StableIdentifier} {reason key : String}
    (h : svc.revoke id reason key r t = .ok t') : LedgerMoves t t' := by
  cases AuthorityService.revoke_ok h with
  | replayed | keyed => exact .stay rfl rfl
  | appended stored hfound => exact .appended _ stored _ hfound (.inl rfl) (.revoked rfl) rfl rfl

theorem record_moves {a a' : ModelExecutionAuthorization} {request : IssueRequest} {key : String}
    (h : svc.record a request key t = .ok (a', t')) : LedgerMoves t t' ∨ Grants a key t t' := by
  cases AuthorityService.record_ok h with
  | replayed | keyed => exact .inl (.stay rfl rfl)
  | inserted digest id row hkey hid hrow => exact .inr ⟨hkey, hid, ⟨row, hrow, rfl⟩, rfl⟩

theorem registerOperatorApproval_moves {approval approval' : ModelExecutionProviderApproval} {key : String}
    (h : svc.registerOperatorApproval approval key t = .ok (approval', t')) :
    t'.authorizations = t.authorizations ∧ t'.ledger = t.ledger := by
  obtain ⟨_, _, rfl⟩ := AuthorityService.registerOperatorApproval_ok h
  exact ⟨rfl, rfl⟩

/-- The world after one step, whatever it returned. -/
def authorityStep (svc : AuthorityService) (w : AuthorityWorld) (l : AuthorityOp × AuthorityInput) : AuthorityWorld :=
  (svc.exec l.1 l.2 w).2

/-- A step moves the ledger, or is the recording step of an issue that records its authorization. -/
theorem authorityStep_moves (svc : AuthorityService) (w : AuthorityWorld) (l : AuthorityOp × AuthorityInput) :
    LedgerMoves w.authority (authorityStep svc w l).authority ∨
      ∃ a request key, l.1 = .record a request key ∧ Grants a key w.authority (authorityStep svc w l).authority := by
  obtain ⟨op, i⟩ := l
  have hstay : LedgerMoves w.authority w.authority := .stay rfl rfl
  cases op with
  | registerOperatorApproval approval key =>
    refine .inl (committed_keeps hstay fun _ _ hx => ?_)
    obtain ⟨hauth, hledger⟩ := registerOperatorApproval_moves hx
    exact .stay hauth hledger
  | record a request key =>
    have hmoves : LedgerMoves w.authority (authorityStep svc w (.record a request key, i)).authority ∨
        Grants a key w.authority (authorityStep svc w (.record a request key, i)).authority :=
      committed_keeps (P := fun t => LedgerMoves w.authority t ∨ Grants a key w.authority t) (.inl hstay)
        fun _ _ hx => record_moves hx
    exact hmoves.imp_right fun hi => ⟨a, request, key, rfl, hi⟩
  | reserve a provider input output pack request => exact .inl (committed_keeps hstay fun _ _ hx => reserve_moves hx)
  | settle reservation input cached output => exact .inl (changed_keeps hstay fun _ hx => settle_moves hx)
  | abandon reservation code => exact .inl (changed_keeps hstay fun _ hx => abandon_moves hx)
  | revoke id reason key => exact .inl (changed_keeps hstay fun _ hx => revoke_moves hx)
  | store _ | now | storedProviderApproval _ | sign _ _ | verifyCapability _ => exact .inl hstay

/-! Whole runs -/

/-- Every recorded authorization stands under its own ID, and the ledger rows of each keep to
its budget. A row belongs to a recorded authorization. -/
structure BudgetsKept (t : AuthorityTables) : Prop where
  keyed : ∀ id a, t.authorizations id = some a → a.authorization.authorizationId.value = id
  within : ∀ id a, t.authorizations id = some a → WithinBudget a.authorization.budget (rowsOf t id)
  known : ∀ row ∈ t.ledger, (t.authorizations row.authorizationId).isSome = true

theorem BudgetsKept.moves (h : BudgetsKept t) (hm : LedgerMoves t t') : BudgetsKept t' := by
  cases hm with
  | stay hauth hledger =>
    refine ⟨fun id a ha => h.keyed id a (hauth ▸ ha), fun id a ha => ?_, fun row hrow => ?_⟩
    · rw [rowsOf, hledger]
      exact h.within id a (hauth ▸ ha)
    · rw [hauth]
      exact h.known row (hledger ▸ hrow)
  | appended target stored row hfound htarget hadm hauth hledger =>
    have hid : row.authorizationId = target := by
      rcases htarget with htarget | htarget
      · exact htarget
      · exact htarget.trans (h.keyed target stored hfound)
    refine ⟨fun id a ha => h.keyed id a (hauth ▸ ha), fun id a ha => ?_, fun r hr => ?_⟩
    · rw [hauth] at ha
      rw [rowsOf, hledger, List.filter_append]
      by_cases hsame : row.authorizationId = id
      · have hone : [row].filter (fun r => decide (r.authorizationId = id)) = [row] := by simp [hsame]
        rw [hid] at hsame
        subst hsame
        rw [hfound, Option.some.injEq] at ha
        subst ha
        rw [hone]
        rw [hid] at hadm
        exact (h.within target stored hfound).concat hadm
      · have hone : [row].filter (fun r => decide (r.authorizationId = id)) = [] := by simp [hsame]
        rw [hone, List.append_nil]
        exact h.within id a ha
    · rw [hauth]
      rw [hledger] at hr
      rcases List.mem_append.mp hr with hr | hr
      · exact h.known r hr
      · rw [List.mem_singleton.mp hr, hid, hfound]
        rfl

theorem BudgetsKept.grants (h : BudgetsKept t) {a : ModelExecutionAuthorization} {key : String} (hi : Grants a key t t') :
    BudgetsKept t' := by
  obtain ⟨-, hfree, ⟨new, rfl, hauth⟩, hledger⟩ := hi
  have hsome (id : String) (b : AuthorizationRow) (hb : t'.authorizations id = some b) :
      (id = new.authorization.authorizationId.value ∧ b = new) ∨ t.authorizations id = some b := by
    rw [hauth] at hb
    by_cases hid : id = new.authorization.authorizationId.value
    · subst hid
      simp only [Function.update_self, Option.some.injEq] at hb
      exact .inl ⟨rfl, hb.symm⟩
    · rw [Function.update_of_ne hid] at hb
      exact .inr hb
  refine ⟨fun id b hb => ?_, fun id b hb => ?_, fun row hrow => ?_⟩
  · rcases hsome id b hb with ⟨rfl, rfl⟩ | hb
    · rfl
    · exact h.keyed id b hb
  · rw [rowsOf, hledger]
    rcases hsome id b hb with ⟨rfl, rfl⟩ | hb
    · have hnone : t.ledger.filter (fun row => decide (row.authorizationId = b.authorization.authorizationId.value)) = [] := by
        apply List.filter_eq_nil_iff.mpr
        intro row hrow hid
        have hk := h.known row hrow
        rw [of_decide_eq_true hid, hfree] at hk
        cases hk
      rw [hnone]
      exact nil_withinBudget _
    · exact h.within id b hb
  · rw [hauth]
    by_cases hid : row.authorizationId = new.authorization.authorizationId.value
    · rw [hid, Function.update_self]
      rfl
    · rw [Function.update_of_ne hid]
      exact h.known row (hledger ▸ hrow)

/-! What a call that returned has in the ledger -/

/-- A reservation that was returned has its reserved row, a settlement the settled row of its usage,
an abandonment a row that closes its reservation, and a revocation the revoked row of an
authorization that its request names. -/
def Booked (svc : AuthorityService) (t : AuthorityTables) : (op : AuthorityOp) → op.Res → Prop
  | .reserve authorization _ input output _ _, reservation =>
    reservation.authorizationId = authorization.authorizationId ∧ reservation.reservedInputTokens = input ∧
      reservation.reservedOutputTokens = output ∧
      ∃ eventId recordedAt, AuthorityService.reservedRow reservation eventId recordedAt ∈ t.ledger
  | .settle reservation input _ output, _ =>
    ∃ row ∈ rowsOf t reservation.authorizationId.value, row.reservationId = some reservation.reservationId.value ∧
      row.eventType = .settled ∧ row.actualInputTokens = some input ∧ row.actualOutputTokens = some output
  | .abandon reservation _, _ =>
    ∃ row ∈ rowsOf t reservation.authorizationId.value, row.reservationId = some reservation.reservationId.value ∧
      (row.eventType = .settled ∨ row.eventType = .abandoned)
  | .revoke authorizationId reason _, _ =>
    ∃ revoked given, svc.revocationRequestHash revoked given = svc.revocationRequestHash authorizationId.value reason ∧
      isRevoked t revoked = true
  | _, _ => True

/-- Every recorded revocation request names an authorization that is revoked. -/
def RevocationsKept (svc : AuthorityService) (t : AuthorityTables) : Prop :=
  ∀ key digest id, t.authorizationIdempotency (AuthorityService.revokeScope, key) = some (digest, id) →
    (∃ reason, svc.revocationRequestHash id reason = digest) ∧ isRevoked t id = true

theorem mem_rowsOf {id : String} {row : LedgerRow} : row ∈ rowsOf t id ↔ row ∈ t.ledger ∧ row.authorizationId = id := by
  rw [rowsOf, List.mem_filter, decide_eq_true_eq]

theorem mem_rowsOf_appended {id : String} {row : LedgerRow} (h : t'.ledger = t.ledger ++ [row])
    (hid : row.authorizationId = id) : row ∈ rowsOf t' id := by
  refine mem_rowsOf.mpr ⟨?_, hid⟩
  rw [h]
  exact List.mem_append_right _ (List.mem_singleton.mpr rfl)

theorem isRevoked_iff {id : String} : isRevoked t id = true ↔ ∃ row ∈ rowsOf t id, row.eventType = .revoked := by
  simp only [isRevoked, List.any_eq_true, decide_eq_true_eq]

theorem rowsOf_mono (h : t.ledger <+: t'.ledger) (id : String) : rowsOf t id ⊆ rowsOf t' id := by
  intro row hrow
  obtain ⟨hmem, hid⟩ := mem_rowsOf.mp hrow
  exact mem_rowsOf.mpr ⟨h.subset hmem, hid⟩

theorem isRevoked_mono (h : t.ledger <+: t'.ledger) {id : String} (hrevoked : isRevoked t id = true) :
    isRevoked t' id = true := by
  obtain ⟨row, hrow, ht⟩ := isRevoked_iff.mp hrevoked
  exact isRevoked_iff.mpr ⟨row, rowsOf_mono h id hrow, ht⟩

theorem Booked.mono (h : t.ledger <+: t'.ledger) {op : AuthorityOp} {a : op.Res} (hb : Booked svc t op a) :
    Booked svc t' op a := by
  cases op with
  | reserve =>
    obtain ⟨hid, hin, hout, eventId, recordedAt, hrow⟩ := hb
    exact ⟨hid, hin, hout, eventId, recordedAt, h.subset hrow⟩
  | settle =>
    obtain ⟨row, hrow, hs⟩ := hb
    exact ⟨row, rowsOf_mono h _ hrow, hs⟩
  | abandon =>
    obtain ⟨row, hrow, hs⟩ := hb
    exact ⟨row, rowsOf_mono h _ hrow, hs⟩
  | revoke =>
    obtain ⟨revoked, given, hhash, hrevoked⟩ := hb
    exact ⟨revoked, given, hhash, isRevoked_mono h hrevoked⟩
  | store | now | registerOperatorApproval | storedProviderApproval | sign | verifyCapability | record => trivial

/-- The row that closed a reservation whose state is closed. -/
theorem closing_row {rows : List LedgerRow} {states : List ReservationState} (hstates : reservationStates rows = .ok states)
    {s : ReservationState} (hs : s ∈ states) (hclosed : s.state ≠ .reserved) :
    ∃ row ∈ rows, row.reservationId = some s.reservationId ∧
      (s.state = .settled ∧ row.eventType = .settled ∧ row.actualInputTokens = s.actualInputTokens ∧
        row.actualOutputTokens = s.actualOutputTokens ∨ s.state = .abandoned ∧ row.eventType = .abandoned) := by
  obtain ⟨⟨opened, terminal⟩, he, ht⟩ := tracking (reservationStates_tracks hstates).1 hs
  obtain ⟨before, after, hrows, -, hfound⟩ := mem_matched.mp he
  have closes {row : LedgerRow} (hrow : terminal = some row) : row ∈ rows ∧ row.reservationId = some s.reservationId := by
    simp only [hrow] at hfound
    have hmem : row ∈ rows := by
      rw [hrows]
      exact List.mem_append_right _ (List.mem_cons_of_mem _ (List.mem_of_find?_eq_some hfound.symm))
    have hcloses : LedgerRow.closes opened row = true := List.find?_some hfound.symm
    unfold LedgerRow.closes at hcloses
    exact ⟨hmem, (of_decide_eq_true hcloses).1.trans ht.id⟩
  obtain hopen | ⟨row, _, _, _, hr, hsettled, hin, hout, -, hin', hout', -⟩ | ⟨row, hr, habandoned⟩ := ht.stands
  · exact absurd hopen hclosed
  · obtain ⟨hmem, hid⟩ := closes rfl
    exact ⟨row, hmem, hid, .inl ⟨hsettled, hr, hin.trans hin'.symm, hout.trans hout'.symm⟩⟩
  · obtain ⟨hmem, hid⟩ := closes rfl
    exact ⟨row, hmem, hid, .inr ⟨habandoned, hr⟩⟩

/-! One call -/

theorem reserve_booked {a : ModelExecutionAuthorization} {provider : ModelExecutionProviderBinding} {input output : Int}
    {pack : Option Digest} {request : Digest} {reservation : ModelExecutionReservation}
    (h : svc.reserve a provider input output pack request r leases t = .ok (reservation, t')) :
    Booked svc t' (.reserve a provider input output pack request) reservation := by
  obtain ⟨-, hid, hin, hout, -, rfl⟩ := AuthorityService.reserve_ok h
  exact ⟨hid, hin, hout, _, _, List.mem_append_right _ (List.mem_singleton.mpr rfl)⟩

theorem settle_booked (hk : BudgetsKept t) {reservation : ModelExecutionReservation} {input cached output : Int}
    (h : svc.settle reservation input cached output r leases t = .ok t') :
    Booked svc t' (.settle reservation input cached output) () := by
  obtain ⟨stored, states, s, hs, -, hsettles⟩ := AuthorityService.settle_ok h
  have hkeyed := hk.keyed _ _ hs.found
  cases hsettles with
  | replayed hsettled hin hout =>
    obtain ⟨row, hrow, hid, ⟨-, hr, hin', hout'⟩ | ⟨habandoned, -⟩⟩ := closing_row hs.read hs.mem (by simp [hsettled])
    · rw [hkeyed] at hrow
      exact ⟨row, hrow, hid.trans (congrArg some hs.id), hr, hin'.trans hin, hout'.trans hout⟩
    · rw [hsettled] at habandoned
      cases habandoned
  | appended =>
    exact ⟨_, mem_rowsOf_appended rfl hkeyed, rfl, rfl, rfl, rfl⟩

theorem abandon_booked (hk : BudgetsKept t) {reservation : ModelExecutionReservation} {failureCode : String}
    (h : svc.abandon reservation failureCode r t = .ok t') : Booked svc t' (.abandon reservation failureCode) () := by
  obtain ⟨stored, states, s, hs, habandons⟩ := AuthorityService.abandon_ok h
  have hkeyed := hk.keyed _ _ hs.found
  cases habandons with
  | closed hclosed =>
    obtain ⟨row, hrow, hid, hterminal⟩ := closing_row hs.read hs.mem hclosed
    rw [hkeyed] at hrow
    exact ⟨row, hrow, hid.trans (congrArg some hs.id), hterminal.imp (·.2.1) (·.2)⟩
  | observed | silent =>
    exact ⟨_, mem_rowsOf_appended rfl hkeyed, rfl, .inr rfl⟩

theorem revoke_booked (hr : RevocationsKept svc t) {id : StableIdentifier} {reason key : String}
    (h : svc.revoke id reason key r t = .ok t') : Booked svc t' (.revoke id reason key) () := by
  cases AuthorityService.revoke_ok h with
  | replayed recorded hrecorded =>
    obtain ⟨⟨given, hgiven⟩, hrevoked⟩ := hr _ _ _ hrecorded
    exact ⟨recorded, given, hgiven, hrevoked⟩
  | keyed hrevoked => exact ⟨id.value, reason, rfl, hrevoked⟩
  | appended => exact ⟨id.value, reason, rfl, isRevoked_iff.mpr ⟨_, mem_rowsOf_appended rfl rfl, rfl⟩⟩

/-- A call that returns has what it owes in the ledger. -/
theorem authorityStep_booked {w : AuthorityWorld} (hk : BudgetsKept w.authority) (hr : RevocationsKept svc w.authority)
    {op : AuthorityOp} {i : AuthorityInput} {a : op.Res} (h : (svc.exec op i w).1 = .ok a) :
    Booked svc (authorityStep svc w (op, i)).authority op a := by
  cases op with
  | reserve => exact reserve_booked (committed_ok h)
  | settle => exact settle_booked hk (changed_ok (committed_ok h))
  | abandon => exact abandon_booked hk (changed_ok (committed_ok h))
  | revoke => exact revoke_booked hr (changed_ok (committed_ok h))
  | store | now | registerOperatorApproval | storedProviderApproval | sign | verifyCapability | record => trivial

theorem authorityStep_grows (svc : AuthorityService) (w : AuthorityWorld) (l : AuthorityOp × AuthorityInput) :
    w.authority.ledger <+: (authorityStep svc w l).authority.ledger := by
  obtain hm | ⟨_, _, _, -, hg⟩ := authorityStep_moves svc w l
  · cases hm with
    | stay _ hledger => rw [hledger]
    | appended _ _ row _ _ _ _ hledger =>
      rw [hledger]
      exact List.prefix_append _ _
  · rw [hg.ledger]

/-! The keys of revocations -/

theorem RevocationsKept.mono (h : RevocationsKept svc t) (hledger : t.ledger <+: t'.ledger)
    (hkeys : ∀ key, t'.authorizationIdempotency (AuthorityService.revokeScope, key) =
      t.authorizationIdempotency (AuthorityService.revokeScope, key)) : RevocationsKept svc t' := by
  intro key digest id hkey
  rw [hkeys] at hkey
  obtain ⟨hreason, hrevoked⟩ := h key digest id hkey
  exact ⟨hreason, isRevoked_mono hledger hrevoked⟩

/-- A key recorded for the revocation of an authorization that is revoked. -/
theorem RevocationsKept.keyed (h : RevocationsKept svc t) {id reason key : String} (hledger : t.ledger <+: t'.ledger)
    (hkeys : t'.authorizationIdempotency = Function.update t.authorizationIdempotency (AuthorityService.revokeScope, key)
      (some (svc.revocationRequestHash id reason, id))) (hrevoked : isRevoked t' id = true) : RevocationsKept svc t' := by
  intro other digest revoked hkey
  rw [hkeys] at hkey
  by_cases hsame : other = key
  · subst hsame
    simp only [Function.update_self, Option.some.injEq, Prod.mk.injEq] at hkey
    obtain ⟨rfl, rfl⟩ := hkey
    exact ⟨⟨reason, rfl⟩, hrevoked⟩
  · rw [Function.update_of_ne (fun heq => hsame (congrArg Prod.snd heq))] at hkey
    obtain ⟨hreason, hold⟩ := h other digest revoked hkey
    exact ⟨hreason, isRevoked_mono hledger hold⟩

theorem RevocationsKept.revoke (h : RevocationsKept svc t) {id : StableIdentifier} {reason key : String}
    (hr : svc.revoke id reason key r t = .ok t') : RevocationsKept svc t' := by
  cases AuthorityService.revoke_ok hr with
  | replayed => exact h
  | keyed hrevoked => exact h.keyed (List.prefix_refl _) rfl hrevoked
  | appended =>
    exact h.keyed (List.prefix_append _ _) rfl (isRevoked_iff.mpr ⟨_, mem_rowsOf_appended rfl rfl, rfl⟩)

theorem RevocationsKept.record (h : RevocationsKept svc t) {a a' : ModelExecutionAuthorization} {request : IssueRequest}
    {key : String} (hr : svc.record a request key t = .ok (a', t')) : RevocationsKept svc t' := by
  have hscope : AuthorityService.revokeScope ≠ AuthorityService.issueScope := by decide
  have hother (key' : String) : (AuthorityService.revokeScope, key') ≠ (AuthorityService.issueScope, key) :=
    fun heq => hscope (congrArg Prod.fst heq)
  cases AuthorityService.record_ok hr with
  | replayed => exact h
  | keyed | inserted =>
    refine h.mono (List.prefix_refl _) fun key' => ?_
    simp only [Function.update_of_ne (hother key')]

theorem authorityStep_revocations {w : AuthorityWorld} (h : RevocationsKept svc w.authority)
    (l : AuthorityOp × AuthorityInput) : RevocationsKept svc (authorityStep svc w l).authority := by
  obtain ⟨op, i⟩ := l
  cases op with
  | registerOperatorApproval approval key =>
    refine committed_keeps h fun _ _ hx => ?_
    obtain ⟨_, _, rfl⟩ := AuthorityService.registerOperatorApproval_ok hx
    exact h
  | record a request key => exact committed_keeps h fun _ _ hx => h.record hx
  | reserve a provider input output pack request =>
    refine committed_keeps h fun _ _ hx => ?_
    obtain ⟨-, -, -, -, -, rfl⟩ := AuthorityService.reserve_ok hx
    exact h.mono (List.prefix_append _ _) fun _ => rfl
  | settle reservation input cached output =>
    refine changed_keeps h fun _ hx => ?_
    obtain ⟨_, _, _, -, -, hsettles⟩ := AuthorityService.settle_ok hx
    cases hsettles with
    | replayed => exact h
    | appended => exact h.mono (List.prefix_append _ _) fun _ => rfl
  | abandon reservation code =>
    refine changed_keeps h fun _ hx => ?_
    obtain ⟨_, _, _, -, habandons⟩ := AuthorityService.abandon_ok hx
    cases habandons with
    | closed => exact h
    | observed | silent => exact h.mono (List.prefix_append _ _) fun _ => rfl
  | revoke id reason key => exact changed_keeps h fun _ hx => h.revoke hx
  | store _ | now | storedProviderApproval _ | sign _ _ | verifyCapability _ => exact h

end

/-- An empty store and a service that has recorded nothing. -/
def AuthorityWorld.empty : AuthorityWorld := ⟨.empty, .empty⟩

/-- In every interleaving of the service's transactions with those of the stores beside it, the
ledger rows of every authorization keep to its budget, and a call that returns has its row in the
ledger from then on. -/
theorem budgets_kept (svc : AuthorityService) (labels : List (AuthorityOp × AuthorityInput)) :
    BudgetsKept (run (authorityStep svc) .empty labels).authority ∧
    ∀ (op : AuthorityOp) (input : AuthorityInput) (a : op.Res),
      (svc.exec op input (run (authorityStep svc) .empty labels)).1 = .ok a → ∀ more : List (AuthorityOp × AuthorityInput),
        Booked svc (run (authorityStep svc) .empty (labels ++ (op, input) :: more)).authority op a := by
  have keeps {w : AuthorityWorld} (hw : BudgetsKept w.authority ∧ RevocationsKept svc w.authority)
      (l : AuthorityOp × AuthorityInput) : (BudgetsKept (authorityStep svc w l).authority ∧
        RevocationsKept svc (authorityStep svc w l).authority) ∧
        w.authority.ledger <+: (authorityStep svc w l).authority.ledger := by
    refine ⟨⟨?_, authorityStep_revocations hw.2 l⟩, authorityStep_grows svc w l⟩
    obtain hm | ⟨a, request, key, -, hi⟩ := authorityStep_moves svc w l
    · exact hw.1.moves hm
    · exact hw.1.grants hi
  have runs {w : AuthorityWorld} (hw : BudgetsKept w.authority ∧ RevocationsKept svc w.authority)
      (labels : List (AuthorityOp × AuthorityInput)) : (BudgetsKept (run (authorityStep svc) w labels).authority ∧
        RevocationsKept svc (run (authorityStep svc) w labels).authority) ∧
        w.authority.ledger <+: (run (authorityStep svc) w labels).authority.ledger :=
    run_keeps (fun w : AuthorityWorld => BudgetsKept w.authority ∧ RevocationsKept svc w.authority)
      (fun w w' => w.authority.ledger <+: w'.authority.ledger) (fun _ => List.prefix_refl _) List.IsPrefix.trans keeps hw
      labels
  have empty : BudgetsKept AuthorityWorld.empty.authority ∧ RevocationsKept svc AuthorityWorld.empty.authority := by
    refine ⟨⟨?_, ?_, ?_⟩, ?_⟩ <;> simp [AuthorityWorld.empty, AuthorityTables.empty, RevocationsKept]
  have hnow := (runs empty labels).1
  refine ⟨hnow.1, fun op input a ha more => ?_⟩
  have hbooked := authorityStep_booked hnow.1 hnow.2 ha
  rw [run_append]
  exact hbooked.mono (runs (keeps hnow (op, input)).1 more).2

end Autolean.ControlPlane
