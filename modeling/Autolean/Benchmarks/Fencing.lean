import Autolean.Benchmarks.AtMostOnce
import Mathlib.Data.List.Flatten

/-! Fencing tokens of trials. An abandonment deletes the row that carries the token, so
numbering starts over: an owner may be granted the same token twice, and then what it gave
up is valid again. This happens exactly when an owner returns to a place it had before an
abandonment. -/
namespace Autolean.Benchmarks
open Contracts Machine Machine.Raising

/-- The owners a trial was granted to, in the series its abandonments end and since the last one. -/
structure Series where
  finished : List (List String)
  current : List String

def Series.next (k : Coordinates) (s : Series) : TrialEvent → Series
  | .claimed reservation =>
    if reservation.coordinates = k then { s with current := s.current ++ [reservation.ownerId] } else s
  | .abandoned reservation =>
    if reservation.coordinates = k then ⟨s.finished ++ [s.current], []⟩ else s
  | _ => s

def seriesOf (k : Coordinates) (history : List TrialEvent) : Series := history.foldl (Series.next k) ⟨[], []⟩

/-- The owner and the token of each reservation of a trial that was returned. -/
def grantsOf (k : Coordinates) (history : List TrialEvent) : List (String × Int) :=
  history.filterMap fun
    | .claimed reservation => if reservation.coordinates = k then some (reservation.ownerId, reservation.fencingToken) else none
    | _ => none

/-- The event presents a reservation: it starts, abandons or records under it. -/
def TrialEvent.presents : TrialEvent → Option RoleBenchmarkTrialReservation
  | started reservation | abandoned reservation | recorded reservation _ => some reservation
  | _ => none

/-- The event grants the trial anew or gives it up. -/
def TrialEvent.ends (k : Coordinates) : TrialEvent → Prop
  | claimed reservation | abandoned reservation => reservation.coordinates = k
  | _ => False

/-- The reservation was granted, and the trial was granted anew or abandoned after it. -/
def Retired (before : List TrialEvent) (reservation : RoleBenchmarkTrialReservation) : Prop :=
  ∃ earlier granted later, before = earlier ++ .claimed granted :: later ∧ granted.coordinates = reservation.coordinates ∧
    granted.ownerId = reservation.ownerId ∧ granted.fencingToken = reservation.fencingToken ∧
    ∃ e ∈ later, e.ends reservation.coordinates

/-- No two reservations of a trial share owner and token, and none that was abandoned or
superseded starts, abandons or records. -/
def FencingFresh (history : List TrialEvent) : Prop :=
  (∀ k, (grantsOf k history).Nodup) ∧
    History (fun before e => ∀ reservation, e.presents = some reservation → ¬ Retired before reservation) history

/-- No claim makes an owner the n-th holder of a trial since its last abandonment when it was
the n-th holder of a series that an abandonment ended. -/
def NoOwnerReturns (history : List TrialEvent) : Prop :=
  History (fun before e => ∀ reservation, e = .claimed reservation →
    ∀ series ∈ (seriesOf reservation.coordinates before).finished,
      series[(seriesOf reservation.coordinates before).current.length]? ≠ some reservation.ownerId) history

/-- A series with the tokens its holders got: the position of each, from one. -/
def numbered (series : List String) : List (String × Int) := series.mapIdx fun index owner => (owner, (index : Int) + 1)

/-- A grant carries the length of the series it extends; a reservation that is accepted is
the last of the current series. -/
def Numbered (before : List TrialEvent) (e : TrialEvent) : Prop :=
  (∀ reservation, e = .claimed reservation →
    reservation.fencingToken = (seriesOf reservation.coordinates before).current.length + 1) ∧
  ∀ reservation, e.presents = some reservation →
    (numbered (seriesOf reservation.coordinates before).current).getLast? = some (reservation.ownerId, reservation.fencingToken)

variable {history before : List TrialEvent} {k : Coordinates} {e : TrialEvent}

theorem seriesOf_snoc : seriesOf k (history ++ [e]) = (seriesOf k history).next k e := by
  simp [seriesOf]

theorem numbered_concat (series : List String) (owner : String) :
    numbered (series ++ [owner]) = numbered series ++ [(owner, (series.length : Int) + 1)] := by
  simp [numbered, List.mapIdx_append]

theorem mem_numbered {series : List String} {owner : String} {n : Nat} :
    (owner, (n : Int) + 1) ∈ numbered series ↔ series[n]? = some owner := by
  simp only [numbered, List.mem_mapIdx, Prod.mk.injEq]
  constructor
  · rintro ⟨i, hi, ho, hn⟩
    have : i = n := by omega
    subst this
    rw [List.getElem?_eq_getElem hi, ho]
  · intro h
    obtain ⟨hi, ho⟩ := List.getElem?_eq_some_iff.mp h
    exact ⟨n, hi, ho, rfl⟩

theorem grantsOf_append (xs ys : List TrialEvent) : grantsOf k (xs ++ ys) = grantsOf k xs ++ grantsOf k ys :=
  List.filterMap_append

/-- The grants of a trial are its series one after the other, each numbered from one. -/
theorem grantsOf_series (h : History Numbered history) (k : Coordinates) :
    grantsOf k history = ((seriesOf k history).finished.map numbered).flatten ++ numbered (seriesOf k history).current := by
  induction history using List.reverseRecOn with
  | nil => rfl
  | append_singleton history e ih =>
    obtain ⟨hfront, hn, -⟩ := (history_concat e).mp h
    have ih := ih hfront
    rw [seriesOf_snoc, grantsOf_append, ih]
    cases e with
    | claimed reservation =>
      by_cases hk : reservation.coordinates = k
      · subst hk
        simp [Series.next, grantsOf, numbered_concat, hn reservation rfl]
      · simp [Series.next, grantsOf, hk]
    | abandoned reservation =>
      by_cases hk : reservation.coordinates = k
      · simp [Series.next, grantsOf, hk, numbered]
      · simp [Series.next, grantsOf, hk]
    | _ => simp [Series.next, grantsOf]

/-- After the last grant of a trial an abandonment leaves its series empty. -/
theorem current_of_ends (before : List TrialEvent) {later : List TrialEvent} (hgrants : grantsOf k later = [])
    (he : ∃ e ∈ later, e.ends k) :
    (seriesOf k (before ++ later)).current = [] := by
  induction later using List.reverseRecOn with
  | nil => simp at he
  | append_singleton later e ih =>
    rw [grantsOf_append] at hgrants
    obtain ⟨hlater, hlast⟩ := List.append_eq_nil_iff.mp hgrants
    rw [← List.append_assoc, seriesOf_snoc]
    have hrest : ¬ e.ends k → (seriesOf k (before ++ later)).current = [] := by
      intro hne
      apply ih hlater
      obtain ⟨x, hx, hends⟩ := he
      rcases List.mem_append.mp hx with hx | hx
      · exact ⟨x, hx, hends⟩
      · exact absurd (List.mem_singleton.mp hx ▸ hends) hne
    cases e with
    | claimed reservation =>
      have hk : reservation.coordinates ≠ k := by simpa [grantsOf] using hlast
      simpa [Series.next, hk] using hrest (by simpa [TrialEvent.ends] using hk)
    | abandoned reservation =>
      by_cases hk : reservation.coordinates = k
      · simp [Series.next, hk]
      · simpa [Series.next, hk] using hrest (by simpa [TrialEvent.ends] using hk)
    | _ => exact hrest (by simp [TrialEvent.ends])

/-- A reservation that is accepted after it was retired shares owner and token with a later one. -/
theorem not_nodup_of_retired (h : History Numbered before) {reservation : RoleBenchmarkTrialReservation}
    (hlast : (numbered (seriesOf reservation.coordinates before).current).getLast? =
      some (reservation.ownerId, reservation.fencingToken)) (hr : Retired before reservation) :
    ¬ (grantsOf reservation.coordinates before).Nodup := by
  obtain ⟨earlier, granted, later, rfl, hk, howner, htoken, he⟩ := hr
  set k := reservation.coordinates with hkdef
  have hgrants := grantsOf_series h k
  have hlater : grantsOf k later ≠ [] := by
    intro hnil
    have hempty := current_of_ends (earlier ++ [.claimed granted]) hnil he
    simp only [List.append_assoc, List.singleton_append] at hempty
    rw [hempty] at hlast
    simp [numbered] at hlast
  have hfinal : (grantsOf k (earlier ++ .claimed granted :: later)).getLast? =
      some (reservation.ownerId, reservation.fencingToken) := by
    rw [hgrants, List.getLast?_append, hlast]
    rfl
  have hsplit : grantsOf k (earlier ++ .claimed granted :: later) =
      grantsOf k earlier ++ (reservation.ownerId, reservation.fencingToken) :: grantsOf k later := by
    rw [grantsOf_append, ← howner, ← htoken]
    simp [grantsOf, hk]
  rw [hsplit] at hfinal ⊢
  intro hnodup
  have hmem : (reservation.ownerId, reservation.fencingToken) ∈ grantsOf k later := by
    apply List.mem_of_getLast?
    rw [List.getLast?_append, List.getLast?_cons] at hfinal
    rw [← hfinal]
    rw [List.getLast?_eq_getLast_of_ne_nil hlater]
    simp
  exact (List.nodup_cons.mp (List.Nodup.of_append_right hnodup)).1 hmem

/-- An event grants a trial one reservation or none. -/
theorem grantsOf_single (k : Coordinates) (e : TrialEvent) : grantsOf k [e] = [] ∨
    ∃ reservation, e = .claimed reservation ∧ reservation.coordinates = k ∧
      grantsOf k [e] = [(reservation.ownerId, reservation.fencingToken)] := by
  cases e with
  | claimed reservation =>
    by_cases hk : reservation.coordinates = k
    · exact .inr ⟨reservation, rfl, hk, by simp [grantsOf, hk]⟩
    · exact .inl (by simp [grantsOf, hk])
  | _ => exact .inl rfl

theorem grants_nodup_snoc : (∀ k, (grantsOf k (history ++ [e])).Nodup) ↔ (∀ k, (grantsOf k history).Nodup) ∧
    ∀ reservation, e = .claimed reservation →
      (reservation.ownerId, reservation.fencingToken) ∉ grantsOf reservation.coordinates history := by
  simp only [grantsOf_append]
  constructor
  · intro hall
    refine ⟨fun k => (hall k).of_append_left, ?_⟩
    rintro reservation rfl hmem
    exact List.disjoint_of_nodup_append (hall reservation.coordinates) hmem (by simp [grantsOf])
  · rintro ⟨hall, hnew⟩ k
    rcases grantsOf_single k e with hnil | ⟨reservation, he, rfl, hone⟩
    · rw [hnil, List.append_nil]
      exact hall k
    · rw [hone, ← List.concat_eq_append]
      exact (hall _).concat (hnew reservation he)

/-- The next token is one the owner had exactly when the owner had that place in an earlier series. -/
theorem granted_iff (h : History Numbered history) {reservation : RoleBenchmarkTrialReservation}
    (hn : reservation.fencingToken = (seriesOf reservation.coordinates history).current.length + 1) :
    (reservation.ownerId, reservation.fencingToken) ∉ grantsOf reservation.coordinates history ↔
      ∀ series ∈ (seriesOf reservation.coordinates history).finished,
        series[(seriesOf reservation.coordinates history).current.length]? ≠ some reservation.ownerId := by
  have hself : (reservation.ownerId, reservation.fencingToken) ∉ numbered (seriesOf reservation.coordinates history).current := by
    rw [hn, mem_numbered, List.getElem?_eq_none (le_refl _)]
    simp
  rw [grantsOf_series h, List.mem_append, not_or]
  simp only [hself, not_false_eq_true, and_true, List.mem_flatten, List.mem_map, not_exists, not_and,
    forall_exists_index, and_imp, forall_apply_eq_imp_iff₂]
  rw [hn]
  simp only [mem_numbered, ne_eq]

/-- Grants stay distinct exactly while no owner returns to a place it had. -/
theorem nodup_iff (h : History Numbered history) : (∀ k, (grantsOf k history).Nodup) ↔ NoOwnerReturns history := by
  induction history using List.reverseRecOn with
  | nil =>
    constructor
    · exact fun _ => history_nil
    · exact fun _ k => List.nodup_nil
  | append_singleton history e ih =>
    obtain ⟨hfront, hn, -⟩ := (history_concat e).mp h
    unfold NoOwnerReturns at ih ⊢
    rw [grants_nodup_snoc, history_concat, ← ih hfront]
    apply and_congr_right
    intro _
    constructor
    · exact fun hnew reservation he => (granted_iff hfront (hn reservation he)).mp (hnew reservation he)
    · exact fun hnew reservation he => (granted_iff hfront (hn reservation he)).mpr (hnew reservation he)

/-- What was retired is accepted again only after an owner got one token twice. -/
theorem fencingFresh_iff (h : History Numbered history) : FencingFresh history ↔ NoOwnerReturns history := by
  rw [← nodup_iff h]
  constructor
  · exact fun hf => hf.1
  · intro hnodup
    refine ⟨hnodup, ?_⟩
    intro before e after hl reservation hp hr
    have hbefore : History Numbered before := fun x y z hxyz => h x y (z ++ e :: after) (by rw [hl, hxyz]; simp)
    have hlast := (h before e after hl).2 reservation hp
    apply not_nodup_of_retired hbefore hlast hr
    have hall := hnodup reservation.coordinates
    rw [hl, grantsOf_append] at hall
    exact hall.of_append_left

/-! The tables and the series -/

theorem token_of_last {series : List String} {owner : String} {token : Int}
    (h : (numbered series).getLast? = some (owner, token)) : token = series.length := by
  induction series using List.reverseRecOn with
  | nil => simp [numbered] at h
  | append_singleton series last ih =>
    rw [numbered_concat, List.getLast?_concat, Option.some.injEq, Prod.mk.injEq] at h
    rw [← h.2, List.length_append]
    rfl

/-- A claim row is the last of its trial's current series; a trial that is open and has no
claim starts a series. -/
structure Issued (t : Tables) (history : List TrialEvent) : Prop where
  claimed : ∀ k row, t.claims.lookup k = some row →
    (numbered (seriesOf k history).current).getLast? = some (row.ownerId, row.fencingToken)
  unclaimed : ∀ k, t.trials.lookup k = none → t.claims.lookup k = none → (seriesOf k history).current = []
  order : History Numbered history

variable {rt : Runtime} {t t' : Tables}

theorem issued_empty : Issued .empty [] := by
  refine ⟨?_, fun _ _ _ => rfl, history_nil⟩
  intro k row h
  cases h

theorem Issued.nextToken (h : Issued t history) (hnone : t.trials.lookup k = none) :
    t.nextToken k = (seriesOf k history).current.length + 1 := by
  unfold Tables.nextToken
  cases hc : t.claims.lookup k with
  | none => simp [h.unclaimed k hnone hc]
  | some row => simp [token_of_last (h.claimed k row hc)]

/-- An event that neither grants nor abandons leaves every series. -/
theorem seriesOf_still (he : ∀ k, ¬ e.ends k) : seriesOf k (history ++ [e]) = seriesOf k history := by
  rw [seriesOf_snoc]
  cases e with
  | claimed reservation => exact absurd rfl (he reservation.coordinates)
  | abandoned reservation => exact absurd rfl (he reservation.coordinates)
  | _ => rfl

theorem Issued.granted (h : Issued t history) (reservation : RoleBenchmarkTrialReservation) {row : ClaimRow}
    (hnone : t.trials.lookup reservation.coordinates = none)
    (htoken : reservation.fencingToken = t.nextToken reservation.coordinates)
    (hrow : (row.ownerId, row.fencingToken) = (reservation.ownerId, reservation.fencingToken)) :
    Issued (t.setClaim reservation.coordinates row) (history ++ [.claimed reservation]) := by
  have hn := h.nextToken hnone
  refine ⟨?_, ?_, (history_concat _).mpr ⟨h.order, ?_, ?_⟩⟩
  · intro k row' hs
    rw [seriesOf_snoc]
    by_cases hk : k = reservation.coordinates
    · subst hk
      rw [Tables.setClaim, AList.lookup_insert] at hs
      cases hs
      simp [Series.next, numbered_concat, hrow, htoken, hn]
    · rw [Tables.setClaim, AList.lookup_insert_ne hk] at hs
      simpa [Series.next, Ne.symm hk] using h.claimed k row' hs
  · intro k htrial hs
    rw [seriesOf_snoc]
    by_cases hk : k = reservation.coordinates
    · simp [Tables.setClaim, hk] at hs
    · rw [Tables.setClaim, AList.lookup_insert_ne hk] at hs
      simpa [Series.next, Ne.symm hk] using h.unclaimed k htrial hs
  · rintro r ⟨⟩
    rw [htoken, hn]
  · intro r hr
    cases hr

/-- A reservation that names the holder of its claim is the last of the current series. -/
theorem Issued.presented (h : Issued t history) {reservation : RoleBenchmarkTrialReservation} {row : ClaimRow}
    (hrow : t.claims.lookup reservation.coordinates = some row) (hheld : Runtime.Holds row reservation)
    (he : e.presents = some reservation) : Numbered history e := by
  constructor
  · rintro r rfl
    cases he
  · intro r hr
    rw [he, Option.some.injEq] at hr
    subst hr
    rw [h.claimed _ row hrow, hheld.1, hheld.2]

theorem Issued.started (h : Issued t history) {reservation : RoleBenchmarkTrialReservation} {row : ClaimRow}
    (hrow : t.claims.lookup reservation.coordinates = some row) (hheld : Runtime.Holds row reservation) (ns : Int) :
    Issued (t.setClaim reservation.coordinates (row.start ns)) (history ++ [.started reservation]) := by
  refine ⟨?_, ?_, (history_concat _).mpr ⟨h.order, h.presented hrow hheld rfl⟩⟩
  · intro k row' hs
    rw [seriesOf_still (fun _ => id)]
    by_cases hk : k = reservation.coordinates
    · subst hk
      rw [Tables.setClaim, AList.lookup_insert] at hs
      cases hs
      exact h.claimed _ row hrow
    · rw [Tables.setClaim, AList.lookup_insert_ne hk] at hs
      exact h.claimed k row' hs
  · intro k htrial hs
    rw [seriesOf_still (fun _ => id)]
    by_cases hk : k = reservation.coordinates
    · simp [Tables.setClaim, hk] at hs
    · rw [Tables.setClaim, AList.lookup_insert_ne hk] at hs
      exact h.unclaimed k htrial hs

theorem Issued.abandoned (h : Issued t history) {reservation : RoleBenchmarkTrialReservation} {row : ClaimRow}
    (hrow : t.claims.lookup reservation.coordinates = some row) (hheld : Runtime.Holds row reservation) :
    Issued { t with claims := t.claims.erase reservation.coordinates } (history ++ [.abandoned reservation]) := by
  refine ⟨?_, ?_, (history_concat _).mpr ⟨h.order, h.presented hrow hheld rfl⟩⟩
  · intro k row' hs
    obtain ⟨hk, hs⟩ := lookup_of_erase hs
    rw [seriesOf_snoc]
    simpa [Series.next, Ne.symm hk] using h.claimed k row' hs
  · intro k htrial hs
    rw [seriesOf_snoc]
    by_cases hk : k = reservation.coordinates
    · simp [Series.next, hk]
    · rw [AList.lookup_erase_ne hk] at hs
      simpa [Series.next, Ne.symm hk] using h.unclaimed k htrial hs

theorem Issued.recorded (h : Issued t history) {reservation : RoleBenchmarkTrialReservation} {row : ClaimRow}
    (hrow : t.claims.lookup reservation.coordinates = some row) (hheld : Runtime.Holds row reservation)
    (result : RoleBenchmarkTrialResult) :
    Issued { t with trials := t.trials.insert reservation.coordinates result, claims := t.claims.erase reservation.coordinates }
      (history ++ [.recorded reservation result]) := by
  refine ⟨?_, ?_, (history_concat _).mpr ⟨h.order, h.presented hrow hheld rfl⟩⟩
  · intro k row' hs
    rw [seriesOf_still (fun _ => id)]
    exact h.claimed k row' (lookup_of_erase hs).2
  · intro k htrial hs
    rw [seriesOf_still (fun _ => id)]
    by_cases hk : k = reservation.coordinates
    · simp [hk] at htrial
    · rw [AList.lookup_insert_ne hk] at htrial
      rw [AList.lookup_erase_ne hk] at hs
      exact h.unclaimed k htrial hs

theorem Issued.returned (h : Issued t history) (result : RoleBenchmarkTrialResult) :
    Issued t (history ++ [.returned k result]) := by
  refine ⟨?_, ?_, (history_concat _).mpr ⟨h.order, ?_, ?_⟩⟩
  · intro k' row hs
    rw [seriesOf_still (fun _ => id)]
    exact h.claimed k' row hs
  · intro k' htrial hs
    rw [seriesOf_still (fun _ => id)]
    exact h.unclaimed k' htrial hs
  · intro r hr
    cases hr
  · intro r hr
    cases hr

/-- Every allowed operation keeps the claims and the series in step. -/
theorem exec_issued {θ : Type} (h : Kept rt t) {op : BenchmarkOp} (ha : Allowed rt t op) (i : Reading)
    (ht : Issued t history) (j : θ) :
    Issued (rt.exec op i t).2 (history ++ (trialEvent ⟨j, op, (rt.exec op i t).1⟩).toList) := by
  have hstay : Issued t (history ++ (none : Option TrialEvent).toList) := by simpa using ht
  cases op with
  | selectRun | selectResults | selectArtifact | execute | putBytes | getBytes => exact hstay
  | createRun run =>
    simp only [Runtime.exec]
    rcases commit_cases (Runtime.createRunTransaction run t) t with ⟨e, he⟩ | ⟨a, t', hx, he⟩
    · rw [he]; exact hstay
    · rw [he]
      rcases Runtime.createRun_cases hx with ⟨-, rfl⟩ | ⟨-, rfl⟩
      · exact ⟨hstay.claimed, hstay.unclaimed, hstay.order⟩
      · exact hstay
  | claimTrial run k ownerId ttlMs =>
    simp only [Runtime.exec]
    rcases commit_cases (rt.claimTrialTransaction run k ownerId ttlMs i.timeNs t) t with ⟨e, he⟩ | ⟨a, t', hx, he⟩
    · rw [he]; exact hstay
    · rw [he]
      rcases Runtime.claimTrial_cases hx with ⟨result, -, rfl, rfl⟩ | ⟨hnone, -, -, expires, -, rfl, rfl⟩
      · exact ht.returned result
      · exact ht.granted ⟨k, ownerId, t.nextToken k, expires, false, none⟩ hnone rfl rfl
  | markTrialExecutionStarted reservation =>
    simp only [Runtime.exec]
    rcases commit_cases (Runtime.markTransaction reservation i.timeNs t) t with ⟨e, he⟩ | ⟨a, t', hx, he⟩
    · rw [he]; exact hstay
    · rw [he]
      obtain ⟨row, hrow, hheld, -, -, -, rfl⟩ := Runtime.mark_cases hx
      exact ht.started hrow hheld _
  | abandonTrial reservation =>
    simp only [Runtime.exec]
    rcases commit_cases (Runtime.abandonTransaction reservation t) t with ⟨e, he⟩ | ⟨a, t', hx, he⟩
    · rw [he]; exact hstay
    · rw [he]
      obtain ⟨row, hrow, hheld, -, rfl⟩ := Runtime.abandon_cases hx
      exact ht.abandoned hrow hheld
  | recordClaimedTrial reservation result =>
    simp only [Runtime.exec]
    rcases commit_cases (Runtime.recordTransaction reservation result i.timeNs t) t with ⟨e, he⟩ | ⟨a, t', hx, he⟩
    · rw [he]; exact hstay
    · rw [he]
      obtain ⟨row, stored, hrow, hheld, -, hstored, rfl⟩ := Runtime.record_cases hx
      have hnone := (h.claims _ row hrow).2.1
      rw [← ha.1] at hstored
      rcases Runtime.storeResult_cases hstored with ⟨-, rfl⟩ | ⟨hsome, -⟩
      · exact ht.recorded hrow hheld result
      · rw [hnone] at hsome
        cases hsome
  | bindRawArtifactManifest runId manifestHash =>
    simp only [Runtime.exec]
    rcases commit_cases (Runtime.bindTransaction runId manifestHash t) t with ⟨e, he⟩ | ⟨a, t', hx, he⟩
    · rw [he]; exact hstay
    · rw [he]
      rcases Runtime.bind_cases hx with ⟨-, rfl⟩ | ⟨-, rfl⟩
      · exact ⟨hstay.claimed, hstay.unclaimed, hstay.order⟩
      · exact hstay

variable {θ : Type} [DecidableEq θ]

/-- Over every interleaving of callers, reservations stay distinct and what was given up stays
refused exactly when no owner returns to a place it had before an abandonment. -/
theorem fencing_fresh_iff_no_owner_returns (rt : Runtime) (calls : θ → StoreCall) (labels : List (θ × Reading)) :
    FencingFresh (historyOf rt calls labels) ↔ NoOwnerReturns (historyOf rt calls labels) := by
  have hissued : Issued (afterCalls rt calls labels).state (historyOf rt calls labels) :=
    sound_traced (callers_sound rt calls) (T := fun history t => Issued t history) issued_empty
      (fun j i hs ha ht => exec_issued hs ha i ht j) labels
  exact fencingFresh_iff hissued.order

/-! One owner claims, abandons and claims again -/

inductive SampleCaller where
  | creator
  | first
  | quitter
  | second
  | starter
  deriving DecidableEq

/-- The reservation both claims return. -/
def sampleReservation : RoleBenchmarkTrialReservation :=
  ⟨⟨"fake", "fake", "fake", 1⟩, "worker", 1, 1000001, false, none⟩

def sampleCalls : SampleCaller → StoreCall
  | .creator => .createRun sampleRun
  | .first | .second => .claimTrial sampleRun "fake" "fake" 1 "worker" 1
  | .quitter => .abandonTrial sampleReservation
  | .starter => .markTrialExecutionStarted sampleReservation

def sampleReading : Reading := ⟨1, .error .executorError, .error .artifactNotFound⟩

def sampleLabels : List (SampleCaller × Reading) :=
  [.creator, .first, .first, .quitter, .second, .second, .starter].map fun caller => (caller, sampleReading)

theorem sampleHistory : historyOf sampleRuntime sampleCalls sampleLabels =
    [.claimed sampleReservation, .abandoned sampleReservation, .claimed sampleReservation, .started sampleReservation] := by
  rfl

theorem fencing_not_fresh : ¬ FencingFresh (historyOf sampleRuntime sampleCalls sampleLabels) := by
  rw [sampleHistory]
  intro h
  exact absurd (h.1 sampleReservation.coordinates) (by decide)

end Autolean.Benchmarks
