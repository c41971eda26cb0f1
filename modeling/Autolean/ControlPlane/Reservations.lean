import Autolean.ControlPlane.ModelLedger
import Autolean.Machine.Matching

/-! What the recomputed states say about the ledger. A reservation is a reserved row with
the terminal row that closes it; each state repeats one of them, in order. -/
namespace Autolean.ControlPlane
open Contracts Machine Raising

def LedgerRow.opens (row : LedgerRow) : Bool := row.eventType = .reserved

/-- A later row settles or abandons the reservation. -/
def LedgerRow.closes (row later : LedgerRow) : Bool :=
  later.reservationId = row.reservationId ∧ (later.eventType = .settled ∨ later.eventType = .abandoned)

/-- Every reserved row with its terminal row. -/
abbrev reservations (rows : List LedgerRow) : List (LedgerRow × Option LedgerRow) :=
  matched LedgerRow.opens LedgerRow.closes rows

/-- The amount one reservation counts: the reserved one until it is settled, none once abandoned. -/
def charged (reserved actual : LedgerRow → Option Int) (e : LedgerRow × Option LedgerRow) : Int :=
  match e.2 with
  | none => (reserved e.1).getD 0
  | some terminal => if terminal.eventType = .settled then (actual terminal).getD 0 else 0

/-- The sum over all reservations. -/
def used (reserved actual : LedgerRow → Option Int) (rows : List LedgerRow) : Int :=
  ((reservations rows).map (charged reserved actual)).sum

def usedInput : List LedgerRow → Int := used (·.reservedInputTokens) (·.actualInputTokens)

def usedOutput : List LedgerRow → Int := used (·.reservedOutputTokens) (·.actualOutputTokens)

def usedCost : List LedgerRow → Int := used (·.reservedCostMicrousd) (·.actualCostMicrousd)

/-- The state of a reservation without a terminal row, or with the given one. -/
inductive Stands (s : ReservationState) : Option LedgerRow → Prop
  | reserved : s.state = .reserved → Stands s none
  | settled (row : LedgerRow) (input output cost : Int) : row.eventType = .settled → s.state = .settled →
      row.actualInputTokens = some input → row.actualOutputTokens = some output → row.actualCostMicrousd = some cost →
      s.actualInputTokens = some input → s.actualOutputTokens = some output → s.actualCostMicrousd = some cost →
      Stands s (some row)
  | abandoned (row : LedgerRow) : row.eventType = .abandoned → s.state = .abandoned → Stands s (some row)

/-- The state repeats the reservation. -/
structure Tracks (e : LedgerRow × Option LedgerRow) (s : ReservationState) : Prop where
  id : e.1.reservationId = some s.reservationId
  attempt : e.1.attemptNumber = some s.attemptNumber
  input : e.1.reservedInputTokens = some s.reservedInputTokens
  output : e.1.reservedOutputTokens = some s.reservedOutputTokens
  cost : e.1.reservedCostMicrousd = some s.reservedCostMicrousd
  input_pos : 1 ≤ s.reservedInputTokens
  output_pos : 1 ≤ s.reservedOutputTokens
  cost_nonneg : 0 ≤ s.reservedCostMicrousd
  stands : Stands s e.2

theorem requiredNonnegativeInt_ok {key : String} {minimum n : Int} {value : Option Int}
    (h : requiredNonnegativeInt key minimum value = .ok n) : value = some n ∧ minimum ≤ n := by
  unfold requiredNonnegativeInt at h
  cases value with
  | none => cases h
  | some v =>
    obtain ⟨hm, hv⟩ := ensure_bind_eq_ok.mp h
    rw [pure_eq_ok] at hv
    exact ⟨congrArg some hv, hv ▸ hm⟩

theorem rowReservationId_ok {row : LedgerRow} {reservationId : String} (h : rowReservationId row = .ok reservationId) :
    row.reservationId = some reservationId := by
  unfold rowReservationId at h
  cases hr : row.reservationId with
  | none => simp [hr, unauthorized] at h
  | some id =>
    simp only [hr] at h
    obtain ⟨-, hid⟩ := ensure_bind_eq_ok.mp h
    rw [pure_eq_ok] at hid
    rw [hid]

theorem openState_ok {states : List ReservationState} {reservationId : String} {s : ReservationState}
    (h : openState states reservationId = .ok s) : stateOf states reservationId = some s ∧ s.state = .reserved := by
  unfold openState at h
  cases hs : stateOf states reservationId with
  | none => simp [hs, unauthorized] at h
  | some s' =>
    simp only [hs] at h
    obtain ⟨hr, hp⟩ := ensure_bind_eq_ok.mp h
    rw [pure_eq_ok] at hp
    exact ⟨by rw [hp], hp ▸ hr⟩

theorem stateOf_mem {states : List ReservationState} {reservationId : String} {s : ReservationState}
    (h : stateOf states reservationId = some s) : s ∈ states ∧ s.reservationId = reservationId :=
  ⟨List.mem_of_find?_eq_some h, by simpa using List.find?_some h⟩

/-- A reserved row opens a reservation that stands reserved. -/
theorem reservedState_tracks {row : LedgerRow} {reservationId : String} {s : ReservationState}
    (hid : row.reservationId = some reservationId) (h : reservedState reservationId row = .ok s) :
    Tracks (row, none) s ∧ s.reservationId = reservationId := by
  unfold reservedState at h
  obtain ⟨attempt, ha, h⟩ := bind_eq_ok.mp h
  obtain ⟨input, hi, h⟩ := bind_eq_ok.mp h
  obtain ⟨output, ho, h⟩ := bind_eq_ok.mp h
  obtain ⟨cost, hc, h⟩ := bind_eq_ok.mp h
  rw [pure_eq_ok] at h
  subst h
  obtain ⟨hi, hip⟩ := requiredNonnegativeInt_ok hi
  obtain ⟨ho, hop⟩ := requiredNonnegativeInt_ok ho
  obtain ⟨hc, hcp⟩ := requiredNonnegativeInt_ok hc
  exact ⟨⟨hid, (requiredNonnegativeInt_ok ha).1, hi, ho, hc, hip, hop, hcp, .reserved rfl⟩, rfl⟩

theorem settledState_tracks {row : LedgerRow} {s s' : ReservationState} (ht : row.eventType = .settled)
    (h : settledState s row = .ok s') :
    s'.reservationId = s.reservationId ∧ ∀ opened, Tracks (opened, none) s → Tracks (opened, some row) s' := by
  unfold settledState at h
  obtain ⟨input, hi, h⟩ := bind_eq_ok.mp h
  obtain ⟨cached, -, h⟩ := bind_eq_ok.mp h
  obtain ⟨output, ho, h⟩ := bind_eq_ok.mp h
  obtain ⟨cost, hc, h⟩ := bind_eq_ok.mp h
  rw [pure_eq_ok] at h
  subst h
  refine ⟨rfl, fun opened hs => ⟨hs.id, hs.attempt, hs.input, hs.output, hs.cost, hs.input_pos, hs.output_pos,
    hs.cost_nonneg, ?_⟩⟩
  exact .settled row input output cost ht rfl (requiredNonnegativeInt_ok hi).1 (requiredNonnegativeInt_ok ho).1
    (requiredNonnegativeInt_ok hc).1 rfl rfl rfl

theorem abandonedState_tracks {row : LedgerRow} {s s' : ReservationState} (ht : row.eventType = .abandoned)
    (h : abandonedState s row = .ok s') :
    s'.reservationId = s.reservationId ∧ ∀ opened, Tracks (opened, none) s → Tracks (opened, some row) s' := by
  unfold abandonedState at h
  obtain ⟨_, -, h⟩ := bind_eq_ok.mp h
  rw [pure_eq_ok] at h
  subst h
  exact ⟨rfl, fun opened hs => ⟨hs.id, hs.attempt, hs.input, hs.output, hs.cost, hs.input_pos, hs.output_pos,
    hs.cost_nonneg, .abandoned row ht rfl⟩⟩

/-! The states of a longer ledger -/

theorem LedgerRow.not_closes {row later : LedgerRow} (h : later.eventType ≠ .settled ∧ later.eventType ≠ .abandoned) :
    row.closes later = false := by
  simp [LedgerRow.closes, h]

theorem reservations_concat_of_not_closes {rows : List LedgerRow} {row : LedgerRow}
    (h : row.eventType ≠ .settled ∧ row.eventType ≠ .abandoned) :
    reservations (rows ++ [row]) = reservations rows ++ if row.opens then [(row, none)] else [] := by
  have hid : (reservations rows).map (closeWith LedgerRow.closes row) = reservations rows := by
    rw [List.map_congr_left fun e _ => closeWith_of_not_closes (LedgerRow.not_closes h), List.map_id']
  rw [reservations, matched_concat, hid]

private theorem forall₂_mem {α β : Type} {R : α → β → Prop} {xs : List α} {ys : List β} (h : List.Forall₂ R xs ys) :
    List.Forall₂ (fun x y => R x y ∧ y ∈ ys) xs ys := by
  induction h with
  | nil => exact .nil
  | cons hr _ ih => exact .cons ⟨hr, List.mem_cons_self⟩ (ih.imp fun _ _ h => ⟨h.1, List.mem_cons_of_mem _ h.2⟩)

/-- A terminal row for an open reservation closes exactly that one. -/
private theorem close_tracks {rows : List LedgerRow} {row : LedgerRow} {states : List ReservationState}
    {s s' : ReservationState} (htracks : List.Forall₂ Tracks (reservations rows) states)
    (hnodup : (states.map (·.reservationId)).Nodup) (hid : row.reservationId = some s.reservationId)
    (hrow : row.eventType = .settled ∨ row.eventType = .abandoned) (hs : s ∈ states) (hopen : s.state = .reserved)
    (hnew : s'.reservationId = s.reservationId ∧ ∀ opened, Tracks (opened, none) s → Tracks (opened, some row) s') :
    List.Forall₂ Tracks (reservations (rows ++ [row])) (replaceState states s') ∧
      ((replaceState states s').map (·.reservationId)).Nodup := by
  have hopens : row.opens = false := by
    unfold LedgerRow.opens
    rcases hrow with h | h <;> simp [h]
  obtain ⟨hsame, hnew⟩ := hnew
  have hclose (e : LedgerRow × Option LedgerRow) (t : ReservationState) (ht : Tracks e t) (hmem : t ∈ states) :
      Tracks (closeWith LedgerRow.closes row e) (if t.reservationId = s'.reservationId then s' else t) := by
    by_cases heq : t.reservationId = s'.reservationId
    · obtain rfl : t = s := List.inj_on_of_nodup_map hnodup hmem hs (heq.trans hsame)
      have hcl : e.1.closes row = true := by
        unfold LedgerRow.closes
        simp [hid, ht.id, hrow]
      obtain ⟨opened, terminal⟩ := e
      cases ht.stands with
      | reserved _ =>
        rw [if_pos heq, closeWith_of_open rfl hcl]
        exact hnew opened ht
      | settled _ _ _ _ _ h => simp [hopen] at h
      | abandoned _ _ h => simp [hopen] at h
    · have hcl : e.1.closes row = false := by
        unfold LedgerRow.closes
        simp only [hid, ht.id, Option.some.injEq, ← hsame, decide_eq_false_iff_not, not_and]
        exact fun h => absurd h.symm heq
      rw [if_neg heq, closeWith_of_not_closes hcl]
      exact ht
  constructor
  · rw [reservations, matched_concat, hopens]
    simp only [Bool.false_eq_true, if_false, List.append_nil, replaceState, List.forall₂_map_left_iff,
      List.forall₂_map_right_iff]
    exact (forall₂_mem htracks).imp fun e t h => hclose e t h.1 h.2
  · have hids : (replaceState states s').map (·.reservationId) = states.map (·.reservationId) := by
      rw [replaceState, List.map_map]
      apply List.map_congr_left
      intro t _
      simp only [Function.comp]
      split
      · rename_i h
        exact h.symm
      · rfl
    rw [hids]
    exact hnodup

theorem reservationStates_concat (rows : List LedgerRow) (row : LedgerRow) :
    reservationStates (rows ++ [row]) = (do let states ← reservationStates rows; applyRow states row) := by
  unfold reservationStates
  rw [List.foldlM_append]
  cases rows.foldlM applyRow [] with
  | error e => rfl
  | ok states => simp [List.foldlM]

/-- The recomputed states repeat the reservations of the ledger, one for each ID. -/
theorem reservationStates_tracks {rows : List LedgerRow} {states : List ReservationState}
    (h : reservationStates rows = .ok states) :
    List.Forall₂ Tracks (reservations rows) states ∧ (states.map (·.reservationId)).Nodup := by
  induction rows using List.reverseRecOn generalizing states with
  | nil =>
    cases h
    exact ⟨.nil, List.nodup_nil⟩
  | append_singleton rows row ih =>
    rw [reservationStates_concat] at h
    obtain ⟨before, hb, h⟩ := bind_eq_ok.mp h
    obtain ⟨htracks, hnodup⟩ := ih hb
    unfold applyRow at h
    cases ht : row.eventType with
    | revoked =>
      simp only [ht] at h
      cases h
      rw [reservations_concat_of_not_closes (by simp [ht])]
      simpa [LedgerRow.opens, ht] using And.intro htracks hnodup
    | reserved =>
      simp only [ht] at h
      obtain ⟨id, hid, h⟩ := bind_eq_ok.mp h
      obtain ⟨hfresh, h⟩ := ensure_bind_eq_ok.mp h
      obtain ⟨s, hs, h⟩ := bind_eq_ok.mp h
      rw [pure_eq_ok] at h
      subst h
      obtain ⟨hs, hsid⟩ := reservedState_tracks (rowReservationId_ok hid) hs
      rw [reservations_concat_of_not_closes (by simp [ht])]
      constructor
      · simp only [LedgerRow.opens, ht, decide_true, if_true]
        exact List.rel_append htracks (.cons hs .nil)
      · rw [List.map_append, List.nodup_append]
        refine ⟨hnodup, List.nodup_singleton _, ?_⟩
        intro a ha b hb
        obtain ⟨t, htm, rfl⟩ := List.mem_map.mp ha
        rw [List.map_singleton, List.mem_singleton] at hb
        rw [hb, hsid]
        have hnone : stateOf before id = none := Option.isNone_iff_eq_none.mp hfresh
        simpa using List.find?_eq_none.mp hnone t htm
    | abandoned =>
      simp only [ht] at h
      obtain ⟨id, hid, h⟩ := bind_eq_ok.mp h
      obtain ⟨s, hs, h⟩ := bind_eq_ok.mp h
      obtain ⟨s', hs', h⟩ := bind_eq_ok.mp h
      rw [pure_eq_ok] at h
      subst h
      obtain ⟨hfound, hopen⟩ := openState_ok hs
      obtain ⟨hmem, rfl⟩ := stateOf_mem hfound
      exact close_tracks htracks hnodup (rowReservationId_ok hid) (.inr ht) hmem hopen (abandonedState_tracks ht hs')
    | settled =>
      simp only [ht] at h
      obtain ⟨id, hid, h⟩ := bind_eq_ok.mp h
      obtain ⟨s, hs, h⟩ := bind_eq_ok.mp h
      obtain ⟨s', hs', h⟩ := bind_eq_ok.mp h
      rw [pure_eq_ok] at h
      subst h
      obtain ⟨hfound, hopen⟩ := openState_ok hs
      obtain ⟨hmem, rfl⟩ := stateOf_mem hfound
      exact close_tracks htracks hnodup (rowReservationId_ok hid) (.inl ht) hmem hopen (settledState_tracks ht hs')

/-! Totals -/

theorem stateUsage_tracks {e : LedgerRow × Option LedgerRow} {s : ReservationState} (h : Tracks e s) :
    stateUsage s = .ok (charged (·.reservedInputTokens) (·.actualInputTokens) e,
      charged (·.reservedOutputTokens) (·.actualOutputTokens) e, charged (·.reservedCostMicrousd) (·.actualCostMicrousd) e) := by
  obtain ⟨row, terminal⟩ := e
  unfold stateUsage charged
  cases h.stands with
  | reserved hs =>
    have hi := h.input
    have ho := h.output
    have hc := h.cost
    simp only at hi ho hc
    simp [hs, hi, ho, hc]
  | settled t input output cost ht hs hi ho hc hi' ho' hc' => simp [hs, ht, hi, ho, hc, hi', ho', hc']
  | abandoned t ht hs => simp [hs, ht]

private theorem foldlM_addUsage {es : List (LedgerRow × Option LedgerRow)} {states : List ReservationState}
    (h : List.Forall₂ Tracks es states) (a b c : Int) :
    states.foldlM addUsage (a, b, c) = .ok
      (a + (es.map (charged (·.reservedInputTokens) (·.actualInputTokens))).sum,
        b + (es.map (charged (·.reservedOutputTokens) (·.actualOutputTokens))).sum,
        c + (es.map (charged (·.reservedCostMicrousd) (·.actualCostMicrousd))).sum) := by
  induction h generalizing a b c with
  | nil => simp [pure, Except.pure]
  | @cons e s _ _ htracks _ ih =>
    have hadd : addUsage (a, b, c) s = .ok (a + charged (·.reservedInputTokens) (·.actualInputTokens) e,
        b + charged (·.reservedOutputTokens) (·.actualOutputTokens) e,
        c + charged (·.reservedCostMicrousd) (·.actualCostMicrousd) e) := by
      unfold addUsage
      rw [stateUsage_tracks htracks]
      rfl
    rw [List.foldlM_cons, hadd, ok_bind, ih]
    simp only [List.map_cons, List.sum_cons, add_assoc]

/-- The totals the service computes are the sums over the reservations of the ledger. -/
theorem usageTotals_tracks {rows : List LedgerRow} {states : List ReservationState}
    (h : List.Forall₂ Tracks (reservations rows) states) :
    usageTotals states = .ok ⟨(reservations rows).length, usedInput rows, usedOutput rows,
      usedInput rows + usedOutput rows, usedCost rows⟩ := by
  unfold usageTotals
  rw [foldlM_addUsage h]
  simp [h.length_eq, usedInput, usedOutput, usedCost, used, pure, Except.pure]

end Autolean.ControlPlane
