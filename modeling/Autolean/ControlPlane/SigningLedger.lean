import Autolean.ControlPlane.SigningProtocol

/-! The ledger under the protocol. Every row of a run belongs to one call, which alone
completes it, and shows how far that call got. -/
namespace Autolean.ControlPlane
open Contracts Machine Raising

/-! Rows -/

theorem SigningRow.clashes_comm {row row' : SigningRow} (h : row.Clashes row') : row'.Clashes row := by
  rcases h with h | h | h | h
  · exact .inl h.symm
  · exact .inr (.inl h.symm)
  · exact .inr (.inr (.inl h.symm))
  · exact .inr (.inr (.inr h.symm))

/-- What a row was inserted with: everything but its outcome. -/
def SigningRow.reservation (row : SigningRow) : SigningRow :=
  { row with state := .pending, attestationJson := none, failureCode := none, completedAt := none }

@[simp] theorem SigningRow.complete_reservation (row : SigningRow) (outcome : SigningOutcome) (completedAt : String) :
    (row.complete outcome completedAt).reservation = row.reservation := by
  cases outcome <;> rfl

namespace SigningTable
variable {t : SigningTable} {row row' : SigningRow} {requestId : String} {outcome : SigningOutcome}
    {completedAt : String}

/-- Rows that agree in a unique column are one row. -/
theorem eq_of_clashes (hrow : row ∈ t.rows) (hrow' : row' ∈ t.rows) (h : row.Clashes row') : row = row' := by
  by_contra hne
  have hsymm : Std.Symm fun a b : SigningRow => ¬ a.Clashes b := ⟨fun a b hab hba => hab (SigningRow.clashes_comm hba)⟩
  exact t.unique.forall hrow hrow' hne h

theorem rowWithKey_some {idempotencyKey : String} (h : t.rowWithKey idempotencyKey = some row) :
    row ∈ t.rows ∧ row.idempotencyKey = idempotencyKey := by
  unfold rowWithKey at h
  exact ⟨List.mem_of_find?_eq_some h, by simpa using List.find?_some h⟩

@[simp] theorem completeRow_reservation :
    (completeRow requestId outcome completedAt row).reservation = row.reservation := by
  unfold completeRow
  split
  · exact SigningRow.complete_reservation ..
  · rfl

theorem completeRow_of_ne (h : row.requestId ≠ requestId) : completeRow requestId outcome completedAt row = row :=
  if_neg fun hp => h hp.1

theorem completeRow_of_complete (h : row.state ≠ .pending) : completeRow requestId outcome completedAt row = row :=
  if_neg fun hp => h hp.2

theorem mem_updatePending : row' ∈ (t.updatePending requestId outcome completedAt).rows ↔
    ∃ row ∈ t.rows, completeRow requestId outcome completedAt row = row' := List.mem_map

/-- Rows stay under what they were inserted with, and a completed row stays as it is. -/
def Persists (t t' : SigningTable) : Prop :=
  ∀ row ∈ t.rows, ∃ row' ∈ t'.rows, row'.reservation = row.reservation ∧ (row.state ≠ .pending → row' = row)

theorem Persists.refl (t : SigningTable) : t.Persists t := fun row hrow => ⟨row, hrow, rfl, fun _ => rfl⟩

theorem Persists.trans {a b c : SigningTable} (hab : a.Persists b) (hbc : b.Persists c) : a.Persists c := by
  intro row hrow
  obtain ⟨row', hrow', hsame, hdone⟩ := hab row hrow
  obtain ⟨row'', hrow'', hsame', hdone'⟩ := hbc row' hrow'
  refine ⟨row'', hrow'', hsame'.trans hsame, fun hstate => ?_⟩
  rw [hdone hstate] at hdone'
  exact hdone' hstate

theorem Persists.insert (h : ∀ existing ∈ t.rows, ¬ existing.Clashes row) : t.Persists (t.insert row h) :=
  fun existing he => ⟨existing, List.mem_append_left _ he, rfl, fun _ => rfl⟩

theorem Persists.updatePending : t.Persists (t.updatePending requestId outcome completedAt) :=
  fun _ hrow => ⟨_, List.mem_map_of_mem hrow, completeRow_reservation, completeRow_of_complete⟩

end SigningTable

/-! Transactions -/

namespace VerifierSigningGateway
variable {gw : VerifierSigningGateway} {request : gw.Request} {t t' : SigningTable}

theorem replayOf_ok {row : SigningRow} {replay : IssuedRequestReplay} (h : gw.replayOf request row = .ok replay) :
    row.requestHash = (gw.requestHash request).value ∧ row.state = .issued ∧
      ∃ text, row.attestationJson = some text ∧ gw.parseAttestation text = some replay.attestation := by
  unfold replayOf demand at h
  by_cases hhash : row.requestHash = (gw.requestHash request).value
  · by_cases hstate : row.state = .issued ∧ row.attestationJson.isSome = true
    · simp only [if_pos hhash, if_pos hstate, bind, Except.bind] at h
      refine ⟨hhash, hstate.1, ?_⟩
      cases hreplay : gw.storedReplay request row with
      | none => simp [hreplay] at h
      | some stored =>
        simp only [hreplay, pure, Except.pure, Except.ok.injEq] at h
        subst h
        unfold storedReplay at hreplay
        simp only [Option.bind_eq_bind, Option.bind_eq_some_iff] at hreplay
        obtain ⟨text, htext, attestation, hparse, receipt, -, hstored⟩ := hreplay
        cases hstored
        exact ⟨text, htext, hparse⟩
    · simp only [if_pos hhash, if_neg hstate, bind, Except.bind] at h
      cases h
  · simp only [if_neg hhash, bind, Except.bind] at h
    cases h

/-- A row of the table that answers the request with the attestation. -/
def Answers (t : SigningTable) (request : gw.Request) (attestation : Attestation) : Prop :=
  ∃ row ∈ t.rows, row.idempotencyKey = request.idempotencyKey ∧ row.requestHash = (gw.requestHash request).value ∧
    row.state = .issued ∧ ∃ text, row.attestationJson = some text ∧ gw.parseAttestation text = some attestation

theorem answers_of_row {row : SigningRow} {replay : IssuedRequestReplay}
    (hrow : t.rowWithKey request.idempotencyKey = some row) (h : gw.replayOf request row = .ok replay) :
    gw.Answers t request replay.attestation := by
  obtain ⟨hmem, hkey⟩ := SigningTable.rowWithKey_some hrow
  obtain ⟨hhash, hstate, htext⟩ := replayOf_ok h
  exact ⟨row, hmem, hkey, hhash, hstate, htext⟩

theorem Answers.persists {attestation : Attestation} (h : gw.Answers t request attestation) (ht : t.Persists t') :
    gw.Answers t' request attestation := by
  obtain ⟨row, hrow, hkey, hhash, hstate, htext⟩ := h
  obtain ⟨row', hrow', -, hdone⟩ := ht row hrow
  rw [hdone (by rw [hstate]; decide)] at hrow'
  exact ⟨row, hrow', hkey, hhash, hstate, htext⟩

theorem loadIssuedReplay_ok {replay : IssuedRequestReplay} (h : gw.loadIssuedReplay request t = .ok (some replay)) :
    gw.Answers t request replay.attestation := by
  unfold loadIssuedReplay at h
  cases hrow : t.rowWithKey request.idempotencyKey with
  | none => simp [hrow] at h
  | some row =>
    simp only [hrow] at h
    cases hreplay : gw.replayOf request row with
    | error e => simp [hreplay, bind, Except.bind] at h
    | ok stored =>
      simp only [hreplay, bind, Except.bind, pure, Except.pure, Except.ok.injEq, Option.some.injEq] at h
      subst h
      exact answers_of_row hrow hreplay

/-- The row carries what the request was reserved with. -/
def RowOf (request : gw.Request) (row : SigningRow) : Prop :=
  ∃ columns now, row.reservation = gw.reservedRow request columns now

/-- A reservation finds the stored answer and writes nothing, or inserts a row that clashes with none. -/
theorem reserveRequest_ok {receipt : IndependentExecutionReceipt} {now : Instant} {found : Option IssuedRequestReplay}
    (h : gw.reserveRequest request receipt now t = .ok (found, t')) :
    (∃ replay, found = some replay ∧ t' = t ∧ gw.Answers t request replay.attestation) ∨
      ∃ columns, found = none ∧ ∃ hnew : ∀ existing ∈ t.rows, ¬ existing.Clashes (gw.reservedRow request columns now),
        t' = t.insert (gw.reservedRow request columns now) hnew := by
  unfold reserveRequest at h
  cases hrow : t.rowWithKey request.idempotencyKey with
  | some row =>
    simp only [hrow] at h
    cases hreplay : gw.replayOf request row with
    | error e => simp [hreplay, bind, Except.bind] at h
    | ok stored =>
      simp only [hreplay, bind, Except.bind, pure, Except.pure, Except.ok.injEq, Prod.mk.injEq] at h
      obtain ⟨rfl, rfl⟩ := h
      exact .inl ⟨stored, rfl, rfl, answers_of_row hrow hreplay⟩
  | none =>
    simp only [hrow] at h
    cases hcolumns : gw.receiptColumns receipt with
    | error e => simp [hcolumns, bind, Except.bind] at h
    | ok columns =>
      simp only [hcolumns, bind, Except.bind, insertRow] at h
      by_cases hnew : ∀ existing ∈ t.rows, ¬ existing.Clashes (gw.reservedRow request columns now)
      · simp only [dif_pos hnew, pure, Except.pure, Except.ok.injEq, Prod.mk.injEq] at h
        obtain ⟨rfl, rfl⟩ := h
        exact .inr ⟨columns, rfl, hnew, rfl⟩
      · simp only [dif_neg hnew] at h
        cases h

theorem recordIssued_ok {attestation : Attestation} {now : Instant}
    (h : gw.recordIssued request attestation now t = .ok ((), t')) :
    t' = t.updatePending request.requestId.value (.issued (gw.dumpAttestation attestation)) (gw.timestamp now) := by
  unfold recordIssued demand at h
  by_cases hcount : t.pendingCount request.requestId.value = 1
  · simp only [if_pos hcount, bind, Except.bind, pure, Except.pure, Except.ok.injEq, Prod.mk.injEq, true_and] at h
    exact h.symm
  · simp only [if_neg hcount, bind, Except.bind] at h
    cases h

theorem settle_cases {α : Type} (x : GatewayRaises (α × SigningTable)) (w : GatewayWorld) :
    (∃ e, settle x w = (.error e, w)) ∨ ∃ a t, x = .ok (a, t) ∧ settle x w = (.ok a, { w with requests := t }) := by
  cases x with
  | error e => exact .inl ⟨e, rfl⟩
  | ok r => exact .inr ⟨r.1, r.2, rfl, rfl⟩

/-! Operations -/

theorem exec_reserve (request : gw.Request) (receipt : IndependentExecutionReceipt) (now : Instant) (i : GatewayInput)
    (w : GatewayWorld) :
    (∃ e, gw.exec (.reserveRequest request receipt now) i w = (.error e, w)) ∨
      (∃ replay, gw.exec (.reserveRequest request receipt now) i w = (.ok (some replay), w) ∧
        gw.Answers w.requests request replay.attestation) ∨
      ∃ columns, ∃ hnew : ∀ existing ∈ w.requests.rows, ¬ existing.Clashes (gw.reservedRow request columns now),
        gw.exec (.reserveRequest request receipt now) i w =
          (.ok none, { w with requests := w.requests.insert (gw.reservedRow request columns now) hnew }) := by
  rcases settle_cases (gw.reserveRequest request receipt now w.requests) w with ⟨e, he⟩ | ⟨found, t, hx, he⟩
  · exact .inl ⟨e, he⟩
  · rcases reserveRequest_ok hx with ⟨replay, rfl, rfl, hanswers⟩ | ⟨columns, rfl, hnew, rfl⟩
    · exact .inr (.inl ⟨replay, he, hanswers⟩)
    · exact .inr (.inr ⟨columns, hnew, he⟩)

theorem exec_record (request : gw.Request) (attestation : Attestation) (i : GatewayInput) (w : GatewayWorld) :
    (∃ e, gw.exec (.recordIssued request attestation) i w = (.error e, w)) ∨
      ∃ completedAt, gw.exec (.recordIssued request attestation) i w = (.ok (), { w with
        requests := w.requests.updatePending request.requestId.value
          (.issued (gw.dumpAttestation attestation)) completedAt }) := by
  cases hclock : readClock i.clock with
  | error e => exact .inl ⟨e, by simp [exec, hclock, settle, bind, Except.bind]⟩
  | ok now =>
    have hexec : gw.exec (.recordIssued request attestation) i w = settle
      (gw.recordIssued request attestation now w.requests) w := by
      simp only [exec, hclock, bind, Except.bind]
    rw [hexec]
    rcases settle_cases (gw.recordIssued request attestation now w.requests) w with ⟨e, he⟩ | ⟨u, t, hx, he⟩
    · exact .inl ⟨e, he⟩
    · rw [he, recordIssued_ok hx]
      exact .inr ⟨gw.timestamp now, rfl⟩

theorem exec_mark (request : gw.Request) (reason : String) (i : GatewayInput) (w : GatewayWorld) :
    (∃ e, gw.exec (.markFailed request reason) i w = (.error e, w)) ∨
      ∃ completedAt, gw.exec (.markFailed request reason) i w = (.ok (), { w with
        requests := w.requests.updatePending request.requestId.value (.failed reason) completedAt }) := by
  cases hclock : readClock i.clock with
  | error e => exact .inl ⟨e, by simp [exec, hclock, settle, bind, Except.bind]⟩
  | ok now => exact .inr ⟨gw.timestamp now, by simp [exec, hclock, settle, bind, Except.bind, pure, Except.pure,
      markFailed]⟩

/-- No operation takes a row back or changes a completed one. -/
theorem exec_persists (op : GatewayOp gw) (i : GatewayInput) (w : GatewayWorld) :
    w.requests.Persists (gw.exec op i w).2.requests := by
  cases op with
  | service | now | verifyExecution | authenticate | loadIssuedReplay | sign | verifySignature => exact .refl _
  | reserveRequest request receipt now =>
    rcases exec_reserve request receipt now i w with ⟨e, he⟩ | ⟨replay, he, -⟩ | ⟨columns, hnew, he⟩
    · rw [he]
      exact .refl _
    · rw [he]
      exact .refl _
    · rw [he]
      exact .insert hnew
  | recordIssued request attestation =>
    rcases exec_record request attestation i w with ⟨e, he⟩ | ⟨completedAt, he⟩
    · rw [he]
      exact .refl _
    · rw [he]
      exact .updatePending
  | markFailed request reason =>
    rcases exec_mark request reason i w with ⟨e, he⟩ | ⟨completedAt, he⟩
    · rw [he]
      exact .refl _
    · rw [he]
      exact .updatePending

/-! The ledger and the phases of the calls -/

variable {θ : Type}

/-- What the row of a reservation shows of it. -/
def Shows (request : gw.Request) (progress : SigningProgress) (row : SigningRow) : Prop :=
  match progress with
  | .issued attestation => row.state = .issued ∧ row.attestationJson = some (gw.dumpAttestation attestation) ∧
      gw.validateIssuedAttestation request attestation = .ok ()
  | .failed => row.state = .failed ∧ row.attestationJson = none
  | .reserved | .signed _ | .verified _ | .confirmed _ => row.state = .pending ∧ row.attestationJson = none

/-- The ledger holds the rows it started with and those of the calls, each completed by its
call alone. -/
structure Linked (start : SigningTable) (phases : θ → String → SigningPhase gw) (t : SigningTable) : Prop where
  held : ∀ {i x request progress}, phases i x = .held request progress → request.requestId.value = x ∧
    (∀ row ∈ start.rows, row.requestId ≠ x) ∧ ∃ row ∈ t.rows, gw.RowOf request row ∧ gw.Shows request progress row
  sole : ∀ {i j x request progress request' progress'}, phases i x = .held request progress →
    phases j x = .held request' progress' → i = j
  rows : ∀ row ∈ t.rows, row ∈ start.rows ∨ ∃ i request progress, phases i row.requestId = .held request progress
  kept : ∀ row ∈ start.rows, row ∈ t.rows
  replaying : ∀ {i x request attestation}, phases i x = .replaying request attestation →
    gw.Answers t request attestation

theorem RowOf.requestId {row : SigningRow} (h : gw.RowOf request row) : row.requestId = request.requestId.value := by
  obtain ⟨columns, now, hrow⟩ := h
  exact (congrArg SigningRow.requestId hrow :)

/-- The row of a request ID that is held is that of the holder. -/
theorem Linked.row {start : SigningTable} {phases : θ → String → SigningPhase gw} (h : gw.Linked start phases t) {i : θ}
    {progress : SigningProgress} {row : SigningRow} (hrow : row ∈ t.rows)
    (hheld : phases i row.requestId = .held request progress) : gw.RowOf request row ∧
      gw.Shows request progress row := by
  obtain ⟨hid, -, row', hrow', hof, hshows⟩ := h.held hheld
  rw [SigningTable.eq_of_clashes hrow hrow' (.inl (hid.symm.trans hof.requestId.symm))]
  exact ⟨hof, hshows⟩

/-- The row of an open reservation is the pending row of its request ID. -/
theorem shows_open {progress : SigningProgress} {row : SigningRow} (hopen : progress.Open) :
    gw.Shows request progress row ↔ row.state = .pending ∧ row.attestationJson = none := by
  cases progress with
  | reserved | signed | verified | confirmed => exact Iff.rfl
  | issued | failed => cases hopen

/-- A change of phase over an unchanged ledger: an open reservation advances, or an answer is found. -/
def Quiet (t : SigningTable) (q q' : SigningPhase gw) : Prop :=
  q' = q ∨ (∃ request progress progress', q = .held request progress ∧ q' = .held request progress' ∧
    progress.Open ∧ progress'.Open) ∨ ∃ request attestation, q = .idle ∧ q' = .replaying request attestation ∧
      gw.Answers t request attestation

variable [DecidableEq θ] {start : SigningTable} {phases : θ → String → SigningPhase gw} {i : θ}
  {phase : String → SigningPhase gw}

theorem Linked.quiet (h : gw.Linked start phases t) (hq : ∀ x, Quiet t (phases i x) (phase x)) :
    gw.Linked start (Function.update phases i phase) t := by
  have hback : ∀ {j x request progress}, Function.update phases i phase j x = .held request progress →
      ∃ progress', phases j x = .held request progress' ∧
        ∀ row, gw.Shows request progress' row → gw.Shows request progress row := by
    intro j x request progress hj
    by_cases hij : j = i
    · subst hij
      rw [Function.update_self] at hj
      rcases hq x with hsame | ⟨request', before, after, hbefore, hafter, hopen, hopen'⟩ | ⟨request', a, -, hafter, -⟩
      · exact ⟨progress, hsame ▸ hj, fun _ hrow => hrow⟩
      · rw [hafter] at hj
        cases hj
        exact ⟨before, hbefore, fun row hrow => (shows_open hopen').mpr ((shows_open hopen).mp hrow)⟩
      · rw [hafter] at hj
        cases hj
    · rw [Function.update_of_ne hij] at hj
      exact ⟨progress, hj, fun _ hrow => hrow⟩
  refine ⟨?_, ?_, ?_, h.kept, ?_⟩
  · intro j x request progress hj
    obtain ⟨progress', hj', hshows⟩ := hback hj
    obtain ⟨hx, hfresh, row, hrow, hof, hshown⟩ := h.held hj'
    exact ⟨hx, hfresh, row, hrow, hof, hshows row hshown⟩
  · intro j k x request progress request' progress' hj hk
    obtain ⟨_, hj', -⟩ := hback hj
    obtain ⟨_, hk', -⟩ := hback hk
    exact h.sole hj' hk'
  · intro row hrow
    rcases h.rows row hrow with hstart | ⟨j, request, progress, hj⟩
    · exact .inl hstart
    · refine .inr ⟨j, request, ?_⟩
      by_cases hij : j = i
      · subst hij
        rw [Function.update_self]
        rcases hq row.requestId with hsame | ⟨request', before, after, hbefore, hafter, -, -⟩ | ⟨_, _, hidle, -, -⟩
        · exact ⟨progress, hsame ▸ hj⟩
        · rw [hbefore] at hj
          cases hj
          exact ⟨after, hafter⟩
        · rw [hidle] at hj
          cases hj
      · exact ⟨progress, by rwa [Function.update_of_ne hij]⟩
  · intro j x request attestation hj
    by_cases hij : j = i
    · subst hij
      rw [Function.update_self] at hj
      rcases hq x with hsame | ⟨request', before, after, hbefore, hafter, -, -⟩ | ⟨request', a, -, hafter, hanswers⟩
      · exact h.replaying (hsame ▸ hj)
      · rw [hafter] at hj
        cases hj
      · rw [hafter] at hj
        cases hj
        exact hanswers
    · rw [Function.update_of_ne hij] at hj
      exact h.replaying hj

/-- A new reservation adds its row, and its call holds it. -/
theorem Linked.insert (h : gw.Linked start phases t) {request : gw.Request} {columns : ReceiptColumns} {now : Instant}
    (hnew : ∀ existing ∈ t.rows, ¬ existing.Clashes (gw.reservedRow request columns now))
    (hphase : phase request.requestId.value = .held request .reserved)
    (hsame : ∀ x, x ≠ request.requestId.value → phase x = phases i x)
      (hidle : phases i request.requestId.value = .idle) :
    gw.Linked start (Function.update phases i phase) (t.insert (gw.reservedRow request columns now) hnew) := by
  have hpersists := SigningTable.Persists.insert hnew
  have habsent : ∀ row ∈ t.rows, row.requestId ≠ request.requestId.value := fun row hrow hid => hnew row hrow (.inl hid)
  have hback : ∀ {j x q}, Function.update phases i phase j x = q → phases j x = q ∨
      j = i ∧ x = request.requestId.value ∧ q = .held request .reserved := by
    intro j x q hj
    by_cases hij : j = i
    · subst hij
      rw [Function.update_self] at hj
      by_cases hx : x = request.requestId.value
      · subst hx
        exact .inr ⟨rfl, rfl, hj.symm.trans hphase⟩
      · exact .inl ((hsame x hx).symm.trans hj)
    · rw [Function.update_of_ne hij] at hj
      exact .inl hj
  have hne : ∀ {j x request' progress'}, phases j x = .held request' progress' → x ≠ request.requestId.value := by
    rintro j x request' progress' hj rfl
    obtain ⟨hx, -, row, hrow, hof, -⟩ := h.held hj
    exact habsent row hrow (hof.requestId.trans hx)
  refine ⟨?_, ?_, ?_, fun row hrow => List.mem_append_left _ (h.kept row hrow), ?_⟩
  · intro j x request' progress hj
    rcases hback hj with hold | ⟨rfl, rfl, hheld⟩
    · obtain ⟨hx, hfresh, row, hrow, hof, hshown⟩ := h.held hold
      exact ⟨hx, hfresh, row, List.mem_append_left _ hrow, hof, hshown⟩
    · cases hheld
      refine ⟨rfl, fun row hrow => habsent row (h.kept row hrow), _, List.mem_append_right _ List.mem_cons_self, ?_,
        rfl, rfl⟩
      exact ⟨columns, now, rfl⟩
  · intro j k x request' progress' request'' progress'' hj hk
    rcases hback hj with hj' | ⟨rfl, rfl, -⟩
    · rcases hback hk with hk' | ⟨-, rfl, -⟩
      · exact h.sole hj' hk'
      · exact absurd rfl (hne hj')
    · rcases hback hk with hk' | ⟨rfl, -, -⟩
      · exact absurd rfl (hne hk')
      · rfl
  · intro row hrow
    rcases List.mem_append.mp hrow with hold | hnewrow
    · rcases h.rows row hold with hstart | ⟨j, request', progress', hj⟩
      · exact .inl hstart
      · refine .inr ⟨j, request', progress', ?_⟩
        by_cases hij : j = i
        · subst hij
          rw [Function.update_self, hsame _ (hne hj)]
          exact hj
        · rwa [Function.update_of_ne hij]
    · rw [List.mem_singleton.mp hnewrow]
      exact .inr ⟨i, request, .reserved, by rw [Function.update_self]; exact hphase⟩
  · intro j x request' attestation hj
    rcases hback hj with hold | ⟨-, -, hheld⟩
    · exact (h.replaying hold).persists hpersists
    · cases hheld

/-- The call that holds a reservation completes its row, and no other row changes. -/
theorem Linked.complete (h : gw.Linked start phases t) {request : gw.Request} {progress progress' : SigningProgress}
    {outcome : SigningOutcome} {completedAt : String} (hphase : phase request.requestId.value = .held request progress')
    (hothers : ∀ x, x ≠ request.requestId.value → phase x = phases i x)
    (hheld : phases i request.requestId.value = .held request progress) (hopen : progress.Open)
    (hshows : ∀ row, gw.Shows request progress row → gw.Shows request progress' (row.complete outcome completedAt)) :
    gw.Linked start (Function.update phases i phase) (t.updatePending request.requestId.value outcome completedAt) := by
  have hpersists : t.Persists (t.updatePending request.requestId.value outcome completedAt) := .updatePending
  have hback : ∀ {j x q}, Function.update phases i phase j x = q →
      (phases j x = q ∧ (j = i → x ≠ request.requestId.value)) ∨
        j = i ∧ x = request.requestId.value ∧ q = .held request progress' := by
    intro j x q hj
    by_cases hij : j = i
    · subst hij
      rw [Function.update_self] at hj
      by_cases hx : x = request.requestId.value
      · subst hx
        exact .inr ⟨rfl, rfl, hj.symm.trans hphase⟩
      · exact .inl ⟨(hothers x hx).symm.trans hj, fun _ => hx⟩
    · rw [Function.update_of_ne hij] at hj
      exact .inl ⟨hj, fun hji => absurd hji hij⟩
  have hkeep : ∀ row ∈ t.rows, row.requestId ≠ request.requestId.value →
      row ∈ (t.updatePending request.requestId.value outcome completedAt).rows := fun row hrow hid =>
    SigningTable.mem_updatePending.mpr ⟨row, hrow, SigningTable.completeRow_of_ne hid⟩
  have hne : ∀ {j x request' q'}, phases j x = .held request' q' → (j = i → x ≠ request.requestId.value) →
      x ≠ request.requestId.value := by
    rintro j x request' q' hj hji rfl
    exact hji (h.sole hj hheld) rfl
  refine ⟨?_, ?_, ?_, ?_, ?_⟩
  · intro j x request' q' hj
    rcases hback hj with ⟨hold, hji⟩ | ⟨rfl, rfl, hnew⟩
    · obtain ⟨hx, hfresh, row, hrow, hof, hshown⟩ := h.held hold
      refine ⟨hx, hfresh, row, hkeep row hrow ?_, hof, hshown⟩
      rw [hof.requestId, hx]
      exact hne hold hji
    · cases hnew
      obtain ⟨-, hfresh, row, hrow, hof, hshown⟩ := h.held hheld
      have hpending : SigningTable.IsPending request.requestId.value row :=
        ⟨hof.requestId, ((shows_open hopen).mp hshown).1⟩
      refine ⟨rfl, hfresh, row.complete outcome completedAt,
        SigningTable.mem_updatePending.mpr ⟨row, hrow, if_pos hpending⟩, ?_, hshows row hshown⟩
      obtain ⟨columns, now, hreservation⟩ := hof
      exact ⟨columns, now, (SigningRow.complete_reservation ..).trans hreservation⟩
  · intro j k x request' q' request'' q'' hj hk
    rcases hback hj with ⟨hj', hji⟩ | ⟨rfl, rfl, -⟩
    · rcases hback hk with ⟨hk', -⟩ | ⟨-, rfl, -⟩
      · exact h.sole hj' hk'
      · exact absurd rfl (hne hj' hji)
    · rcases hback hk with ⟨hk', hki⟩ | ⟨rfl, -, -⟩
      · exact absurd rfl (hne hk' hki)
      · rfl
  · intro row' hrow'
    obtain ⟨row, hrow, rfl⟩ := SigningTable.mem_updatePending.mp hrow'
    have hsame :
      (SigningTable.completeRow request.requestId.value outcome completedAt row).reservation = row.reservation :=
      SigningTable.completeRow_reservation
    have hid : (SigningTable.completeRow request.requestId.value outcome completedAt row).requestId = row.requestId :=
      (congrArg SigningRow.requestId hsame :)
    by_cases hx : row.requestId = request.requestId.value
    · refine .inr ⟨i, request, progress', ?_⟩
      rw [hid, hx, Function.update_self]
      exact hphase
    · rw [SigningTable.completeRow_of_ne hx]
      rcases h.rows row hrow with hstart | ⟨j, request', q', hj⟩
      · exact .inl hstart
      · refine .inr ⟨j, request', q', ?_⟩
        by_cases hij : j = i
        · subst hij
          rw [Function.update_self, hothers _ hx]
          exact hj
        · rwa [Function.update_of_ne hij]
  · intro row hrow
    exact hkeep row (h.kept row hrow) ((h.held hheld).2.1 row hrow)
  · intro j x request' attestation hj
    rcases hback hj with ⟨hold, -⟩ | ⟨-, -, hnew⟩
    · exact (h.replaying hold).persists hpersists
    · cases hnew

/-! What a permitted step did -/

theorem step_other {x : String} {q q' : SigningPhase gw} {op : GatewayOp gw} {r : Except GatewayError op.Res}
    (h : SigningStep gw x q op r q') (hx : op.requestId ≠ some x) (hsome : op.requestId ≠ none) : q' = q := by
  cases h with
  | other => rfl
  | verified | confirmed => exact absurd rfl hsome
  | absent hid | loaded hid | refused hid | found hid | reserved hid | signed hid | recorded hid | unrecorded hid
  | marked hid | unmarked hid => exact absurd (congrArg some hid) hx

theorem step_silent {x : String} {q q' : SigningPhase gw} {op : GatewayOp gw} {r : Except GatewayError op.Res}
    (h : SigningStep gw x q op r q') (hnone : op.requestId = none) : Quiet t q q' := by
  cases h with
  | other => exact .inl rfl
  | verified | confirmed => exact .inr (.inl ⟨_, _, _, rfl, rfl, trivial, trivial⟩)
  | absent | loaded | refused | found | reserved | signed | recorded | unrecorded | marked | unmarked => cases hnone

theorem step_load {q q' : SigningPhase gw} {r : GatewayRaises (Option IssuedRequestReplay)}
    (h : SigningStep gw request.requestId.value q (.loadIssuedReplay request) r q') :
    q' = q ∨ ∃ replay, r = .ok (some replay) ∧ q = .idle ∧ q' = .replaying request replay.attestation := by
  cases h with
  | other h => exact absurd rfl h
  | absent => exact .inl rfl
  | loaded => exact .inr ⟨_, rfl, rfl, rfl⟩

theorem step_reserve {q q' : SigningPhase gw} {receipt : IndependentExecutionReceipt} {now : Instant}
    {r : GatewayRaises (Option IssuedRequestReplay)}
    (h : SigningStep gw request.requestId.value q (.reserveRequest request receipt now) r q') :
    q = .idle ∧ ((∃ e, r = .error e ∧ q' = .idle) ∨
      (∃ replay, r = .ok (some replay) ∧ q' = .replaying request replay.attestation) ∨
      r = .ok none ∧ q' = .held request .reserved) := by
  cases h with
  | other h => exact absurd rfl h
  | refused => exact ⟨rfl, .inl ⟨_, rfl, rfl⟩⟩
  | found => exact ⟨rfl, .inr (.inl ⟨_, rfl, rfl⟩)⟩
  | reserved => exact ⟨rfl, .inr (.inr ⟨rfl, rfl⟩)⟩

theorem step_sign {q q' : SigningPhase gw} {ttlSeconds : ℚ} {r : GatewayRaises Attestation}
    (h : SigningStep gw request.requestId.value q (.sign request ttlSeconds) r q') :
    q = .held request .reserved ∧ q' = .held request (.signed r) := by
  cases h with
  | other h => exact absurd rfl h
  | signed => exact ⟨rfl, rfl⟩

theorem step_record {q q' : SigningPhase gw} {attestation : Attestation} {r : GatewayRaises Unit}
    (h : SigningStep gw request.requestId.value q (.recordIssued request attestation) r q') :
    q = .held request (.confirmed attestation) ∧ ((∃ e, r = .error e ∧ q' = q) ∨
      r = .ok () ∧ q' = .held request (.issued attestation) ∧ gw.validateIssuedAttestation request attestation = .ok
        ()) := by
  cases h with
  | other h => exact absurd rfl h
  | recorded _ hvalid => exact ⟨rfl, .inr ⟨rfl, rfl, hvalid⟩⟩
  | unrecorded => exact ⟨rfl, .inl ⟨_, rfl, rfl⟩⟩

theorem step_mark {q q' : SigningPhase gw} {reason : String} {r : GatewayRaises Unit}
    (h : SigningStep gw request.requestId.value q (.markFailed request reason) r q') :
    ∃ progress : SigningProgress, q = .held request progress ∧ progress.Open ∧
      ((∃ e, r = .error e ∧ q' = q) ∨ r = .ok () ∧ q' = .held request .failed) := by
  cases h with
  | other h => exact absurd rfl h
  | marked _ hopen => exact ⟨_, rfl, hopen, .inr ⟨rfl, rfl⟩⟩
  | unmarked _ hopen => exact ⟨_, rfl, hopen, .inl ⟨_, rfl, rfl⟩⟩

/-- Every operation a call may issue keeps the ledger and the phases linked. -/
theorem Linked.step {w : GatewayWorld} (h : gw.Linked start phases w.requests) (op : GatewayOp gw)
    (input : GatewayInput)
    (hstep : ∀ x, SigningStep gw x (phases i x) op (gw.exec op input w).1 (phase x)) :
    gw.Linked start (Function.update phases i phase) (gw.exec op input w).2.requests := by
  have hother : ∀ {y}, op.requestId = some y → ∀ x, x ≠ y → phase x = phases i x := by
    intro y hy x hx
    exact step_other (hstep x) (by rw [hy]; simpa using hx.symm) (by rw [hy]; simp)
  have hquiet : ∀ {y}, op.requestId = some y → Quiet w.requests (phases i y) (phase y) →
      ∀ x, Quiet w.requests (phases i x) (phase x) := by
    intro y hy hq x
    by_cases hx : x = y
    · rw [hx]
      exact hq
    · exact .inl (hother hy x hx)
  cases op with
  | service | now | verifyExecution | authenticate | verifySignature =>
    exact h.quiet fun x => step_silent (hstep x) rfl
  | loadIssuedReplay request =>
    apply h.quiet
    apply hquiet rfl
    rcases step_load (hstep _) with hsame | ⟨replay, hr, hidle, hreplaying⟩
    · exact .inl hsame
    · exact .inr (.inr ⟨_, _, hidle, hreplaying, loadIssuedReplay_ok hr⟩)
  | sign request ttlSeconds =>
    apply h.quiet
    apply hquiet rfl
    obtain ⟨hreserved, hsigned⟩ := step_sign (hstep _)
    exact .inr (.inl ⟨_, _, _, hreserved, hsigned, trivial, trivial⟩)
  | reserveRequest request receipt now =>
    obtain ⟨hidle, hcases⟩ := step_reserve (hstep request.requestId.value)
    rcases exec_reserve request receipt now input w with ⟨e, he⟩ | ⟨replay, he, hanswers⟩ | ⟨columns, hnew, he⟩
    · rw [he] at hcases ⊢
      apply h.quiet
      apply hquiet rfl
      rcases hcases with ⟨_, -, hphase⟩ | ⟨_, hr, -⟩ | ⟨hr, -⟩
      · exact .inl (hphase.trans hidle.symm)
      · cases hr
      · cases hr
    · rw [he] at hcases ⊢
      apply h.quiet
      apply hquiet rfl
      rcases hcases with ⟨_, hr, -⟩ | ⟨_, hr, hphase⟩ | ⟨hr, -⟩
      · cases hr
      · cases hr
        exact .inr (.inr ⟨_, _, hidle, hphase, hanswers⟩)
      · cases hr
    · rw [he] at hcases ⊢
      rcases hcases with ⟨_, hr, -⟩ | ⟨_, hr, -⟩ | ⟨-, hphase⟩
      · cases hr
      · cases hr
      · exact h.insert hnew hphase (hother rfl) hidle
  | recordIssued request attestation =>
    obtain ⟨hconfirmed, hcases⟩ := step_record (hstep request.requestId.value)
    rcases exec_record request attestation input w with ⟨e, he⟩ | ⟨completedAt, he⟩
    · rw [he] at hcases ⊢
      apply h.quiet
      apply hquiet rfl
      rcases hcases with ⟨_, -, hphase⟩ | ⟨hr, -, -⟩
      · exact .inl hphase
      · cases hr
    · rw [he] at hcases ⊢
      rcases hcases with ⟨_, hr, -⟩ | ⟨-, hphase, hvalid⟩
      · cases hr
      · exact h.complete hphase (hother rfl) hconfirmed trivial fun row _ => ⟨rfl, rfl, hvalid⟩
  | markFailed request reason =>
    obtain ⟨progress, hheld, hopen, hcases⟩ := step_mark (hstep request.requestId.value)
    rcases exec_mark request reason input w with ⟨e, he⟩ | ⟨completedAt, he⟩
    · rw [he] at hcases ⊢
      apply h.quiet
      apply hquiet rfl
      rcases hcases with ⟨_, -, hphase⟩ | ⟨hr, -⟩
      · exact .inl hphase
      · cases hr
    · rw [he] at hcases ⊢
      rcases hcases with ⟨_, hr, -⟩ | ⟨-, hphase⟩
      · cases hr
      · refine h.complete hphase (hother rfl) hheld hopen fun row hrow => ⟨rfl, ?_⟩
        exact ((shows_open hopen).mp hrow).2

end VerifierSigningGateway
end Autolean.ControlPlane
