import Autolean.ControlPlane.Feedback
import Autolean.ControlPlane.Verdicts

/-! What the replay of the phase feedback holds of each bundle, and when it returns. Over every
reachable log it returns unless a gap report and a contract change request of one bundle share
an identifier. -/
namespace Autolean.ControlPlane.Projection
open Contracts Machine Raising

def submittedProof (e : StoredEvent) : Option String :=
  if e.eventType = "proof.submitted" then some (proofIdOf e) else none

/-- The proof on which the event is a verdict of the kind. -/
def verdictOn (accepted : Bool) (e : StoredEvent) : Option String :=
  if IsVerification e then
    match verificationAccepted e with
    | .ok accepted' => if accepted' = accepted then e.payload.text "proof_id" else none
    | .error _ => none
  else none

def openedReview (e : StoredEvent) : Option ReviewAssumption :=
  if IsReview e then some (unresolvedReviewAssumption e) else none

/-- The events that the feedback takes up. -/
def Relevant (e : StoredEvent) : Prop :=
  e.eventType = "task.registered" ∨ e.eventType = "proof.submitted" ∨ IsVerification e ∨ IsReview e

instance Relevant.decidable (e : StoredEvent) : Decidable (Relevant e) := inferInstanceAs (Decidable (_ ∨ _ ∨ _ ∨ _))

/-- The milestone of an event that the feedback takes up, for a bundle with the fidelity evidence. -/
def milestoneOf (evidence : Option String) (e : StoredEvent) : Milestone :=
  if e.eventType = "task.registered" then feedbackMilestone "builder_fidelity" "recorded" e evidence none none
  else if e.eventType = "proof.submitted" then
    feedbackMilestone "prover_candidate" "pending" e (artifactDigest e.payload "proof_artifact") (some (proofIdOf e)) none
  else if IsVerification e then
    feedbackMilestone "prover_verification"
      (if (verificationAccepted e).toOption = some true then "accepted" else "rejected") e
      (artifactDigest e.payload "verification_artifact") (e.payload.text "proof_id") none
  else feedbackMilestone "human_review" "unresolved" e (unresolvedReviewAssumption e).evidenceDigest none
    (some (unresolvedReviewAssumption e).id)

theorem milestoneOf_sequence (evidence : Option String) (e : StoredEvent) :
    (milestoneOf evidence e).sourceEventSequence = e.globalPosition := by
  unfold milestoneOf
  split_ifs <;> rfl

/-- The events about a bundle. -/
def aboutTask (taskId : String) (events : List StoredEvent) : List StoredEvent :=
  events.filter fun e => eventTaskId e = some taskId

/-- An accumulator holds what the past events about its bundle say. -/
structure Observed (past : List StoredEvent) (s : PhaseFeedbackState) : Prop where
  relevant : s.relevantEvents = past.filter fun e => Relevant e
  submitted : s.submittedProofIds = past.filterMap submittedProof
  accepted : s.acceptedProofIds = past.filterMap (verdictOn true)
  rejected : s.rejectedProofIds = past.filterMap (verdictOn false)
  reviews : s.unresolvedReviews = past.filterMap openedReview
  review_ids : ∀ x, x ∈ s.unresolvedReviewIds ↔ x ∈ s.unresolvedReviews.map (·.id)
  reviews_once : (s.unresolvedReviews.map (·.id)).Nodup
  milestones : s.milestones = s.relevantEvents.map (milestoneOf s.builderFidelity.evidenceDigest)
  submitted_once : s.submittedProofIds.Nodup
  verdicts_once : (s.acceptedProofIds ++ s.rejectedProofIds).Nodup
  verdicts_submitted : ∀ x ∈ s.acceptedProofIds ++ s.rejectedProofIds, x ∈ s.submittedProofIds

/-! One event -/

/-- What the kind of an event says about what else it is. -/
theorem kinds_registered {e : StoredEvent} (h : e.eventType = "task.registered") :
    submittedProof e = none ∧ (∀ b, verdictOn b e = none) ∧ openedReview e = none ∧ Relevant e := by
  have hverification : ¬ IsVerification e := by
    unfold IsVerification
    rw [h]
    decide
  exact ⟨by simp [submittedProof, h], fun b => if_neg hverification, by simp [openedReview, IsReview, h], .inl h⟩

theorem kinds_submitted {e : StoredEvent} (h : e.eventType = "proof.submitted") :
    submittedProof e = some (proofIdOf e) ∧ (∀ b, verdictOn b e = none) ∧ openedReview e = none ∧ Relevant e := by
  have hverification : ¬ IsVerification e := by
    unfold IsVerification
    rw [h]
    decide
  exact ⟨if_pos h, fun b => if_neg hverification, by simp [openedReview, IsReview, h], .inr (.inl h)⟩

theorem kinds_verification {e : StoredEvent} (h : IsVerification e) {accepted : Bool}
    (hv : verificationAccepted e = .ok accepted) :
    submittedProof e = none ∧ (∀ b, verdictOn b e = if accepted = b then e.payload.text "proof_id" else none) ∧
      openedReview e = none ∧ Relevant e := by
  have hsubmitted : e.eventType ≠ "proof.submitted" := by
    intro ht
    unfold IsVerification at h
    rw [ht] at h
    exact absurd h (by decide)
  have hreview : ¬ IsReview e := by
    rintro (ht | ht)
    all_goals
      unfold IsVerification at h
      rw [ht] at h
      exact absurd h (by decide)
  refine ⟨if_neg hsubmitted, fun b => ?_, if_neg hreview, .inr (.inr (.inl h))⟩
  rw [verdictOn, if_pos h, hv]

theorem kinds_review {e : StoredEvent} (h : IsReview e) :
    submittedProof e = none ∧ (∀ b, verdictOn b e = none) ∧ openedReview e = some (unresolvedReviewAssumption e) ∧
      Relevant e := by
  have hverification : ¬ IsVerification e := by
    unfold IsVerification
    rcases h with h | h
    all_goals
      rw [h]
      decide
  refine ⟨if_neg ?_, fun b => if_neg hverification, if_pos h, .inr (.inr (.inr h))⟩
  rcases h with h | h
  all_goals
    rw [h]
    decide

theorem kinds_other {e : StoredEvent} (h : ¬ Relevant e) :
    submittedProof e = none ∧ (∀ b, verdictOn b e = none) ∧ openedReview e = none := by
  simp only [Relevant, not_or] at h
  exact ⟨if_neg h.2.1, fun b => if_neg h.2.2.1, if_neg h.2.2.2⟩

section Observe
variable {s s' : PhaseFeedbackState} {e : StoredEvent} {past : List StoredEvent}

/-- What one event does to the accumulator of its bundle. -/
theorem observe_cases (h : s.observe e = .ok s') :
    s.registrationEvent.globalPosition ≤ e.globalPosition ∧
      ((e.eventType = "task.registered" ∧ s' = s.mark e (feedbackMilestone "builder_fidelity" "recorded" e
          s.builderFidelity.evidenceDigest none none)) ∨
        (e.eventType = "proof.submitted" ∧ s.submitted e = .ok s') ∨ (IsVerification e ∧ s.verified e = .ok s') ∨
        (IsReview e ∧ s.reviewed e = .ok s') ∨ (¬ Relevant e ∧ s' = s)) := by
  unfold PhaseFeedbackState.observe at h
  obtain ⟨hposition, h⟩ := ensure_bind_eq_ok.mp h
  refine ⟨not_lt.mp hposition, ?_⟩
  split_ifs at h with hregistered hsubmitted hverification hreview
  · cases h
    exact .inl ⟨hregistered, rfl⟩
  · exact .inr (.inl ⟨hsubmitted, h⟩)
  · exact .inr (.inr (.inl ⟨hverification, h⟩))
  · exact .inr (.inr (.inr (.inl ⟨hreview, h⟩)))
  · cases h
    exact .inr (.inr (.inr (.inr ⟨by simp only [Relevant, not_or]; exact
      ⟨hregistered, hsubmitted, hverification, hreview⟩,
      rfl⟩)))

theorem filterMap_snoc {α β : Type} (f : α → Option β) (past : List α) (a : α) :
    (past ++ [a]).filterMap f = past.filterMap f ++ (f a).toList := by
  rw [List.filterMap_append]
  cases h : f a with
  | none => rw [List.filterMap_cons_none h]; rfl
  | some b => rw [List.filterMap_cons_some h]; rfl

theorem Observed.relevant_snoc (h : Observed past s) (hr : Relevant e) :
    s.relevantEvents ++ [e] = (past ++ [e]).filter fun e => Relevant e := by
  rw [List.filter_append, ← h.relevant]
  simp [hr]

theorem Observed.milestones_snoc (h : Observed past s) {m : Milestone}
    (hm : milestoneOf s.builderFidelity.evidenceDigest e = m) :
    s.milestones ++ [m] = (s.relevantEvents ++ [e]).map (milestoneOf s.builderFidelity.evidenceDigest) := by
  rw [h.milestones, List.map_append, List.map_singleton, hm]

theorem submitted_ok (h : s.submitted e = .ok s') : proofIdOf e ∉ s.submittedProofIds ∧
    s' = { s.mark e (feedbackMilestone "prover_candidate" "pending" e (artifactDigest e.payload "proof_artifact")
      (some (proofIdOf e)) none) with submittedProofIds := s.submittedProofIds ++ [proofIdOf e] } := by
  obtain ⟨hfresh, h⟩ := ensure_bind_eq_ok.mp h
  cases h
  exact ⟨hfresh, rfl⟩

theorem verified_ok (h : s.verified e = .ok s') : ∃ proofId accepted, e.payload.text "proof_id" = some proofId ∧
    proofId ∈ s.submittedProofIds ∧ proofId ∉ s.acceptedProofIds ++ s.rejectedProofIds ∧
    verificationAccepted e = .ok accepted ∧
    s' = { s.mark e (feedbackMilestone "prover_verification" (if accepted then "accepted" else "rejected") e
          (artifactDigest e.payload "verification_artifact") (some proofId) none) with
        acceptedProofIds := s.acceptedProofIds ++ if accepted then [proofId] else []
        rejectedProofIds := s.rejectedProofIds ++ if accepted then [] else [proofId] } := by
  unfold PhaseFeedbackState.verified at h
  split at h
  · cases h
  · rename_i proofId hid
    obtain ⟨hsubmitted, h⟩ := ensure_bind_eq_ok.mp h
    obtain ⟨hfresh, h⟩ := ensure_bind_eq_ok.mp h
    obtain ⟨accepted, haccepted, h⟩ := bind_eq_ok.mp h
    refine ⟨proofId, accepted, hid, hsubmitted, by rw [List.mem_append, not_or]; exact hfresh, haccepted,
      ?_⟩
    cases h
    cases accepted <;> simp [PhaseFeedbackState.mark]

theorem reviewed_ok (h : s.reviewed e = .ok s') : (unresolvedReviewAssumption e).id ∉ s.unresolvedReviewIds ∧
    s' = { s.mark e (feedbackMilestone "human_review" "unresolved" e (unresolvedReviewAssumption e).evidenceDigest none
        (some (unresolvedReviewAssumption e).id)) with
      unresolvedReviewIds := insert (unresolvedReviewAssumption e).id s.unresolvedReviewIds
      unresolvedReviews := s.unresolvedReviews ++ [unresolvedReviewAssumption e] } := by
  obtain ⟨hfresh, h⟩ := ensure_bind_eq_ok.mp h
  cases h
  exact ⟨hfresh, rfl⟩

/-- The milestone of each kind of event. -/
theorem milestoneOf_submitted (evidence : Option String) (ht : e.eventType = "proof.submitted") :
    milestoneOf evidence e = feedbackMilestone "prover_candidate" "pending" e
      (artifactDigest e.payload "proof_artifact") (some (proofIdOf e)) none := by
  rw [milestoneOf, if_neg (by rw [ht]; decide), if_pos ht]

theorem milestoneOf_verification (evidence : Option String) (ht : IsVerification e) {accepted : Bool}
    (ha : verificationAccepted e = .ok accepted) :
    milestoneOf evidence e = feedbackMilestone "prover_verification" (if accepted then "accepted" else "rejected") e
      (artifactDigest e.payload "verification_artifact") (e.payload.text "proof_id") none := by
  have hregistered : e.eventType ≠ "task.registered" := by
    intro h
    unfold IsVerification at ht
    rw [h] at ht
    exact absurd ht (by decide)
  have hsubmitted : e.eventType ≠ "proof.submitted" := by
    intro h
    unfold IsVerification at ht
    rw [h] at ht
    exact absurd ht (by decide)
  rw [milestoneOf, if_neg hregistered, if_neg hsubmitted, if_pos ht, ha]
  cases accepted <;> rfl

theorem milestoneOf_review (evidence : Option String) (ht : IsReview e) :
    milestoneOf evidence e = feedbackMilestone "human_review" "unresolved" e
      (unresolvedReviewAssumption e).evidenceDigest none (some (unresolvedReviewAssumption e).id) := by
  have hverification : ¬ IsVerification e := by
    unfold IsVerification
    rcases ht with h | h
    all_goals
      rw [h]
      decide
  rcases ht with h | h
  all_goals rw [milestoneOf, if_neg (by rw [h]; decide), if_neg (by rw [h]; decide), if_neg hverification]

/-- The accumulator of a bundle keeps what it holds when an event is taken up. -/
theorem Observed.step (h : Observed past s) (hstep : s.observe e = .ok s') : Observed (past ++ [e]) s' := by
  obtain ⟨-, ⟨ht, rfl⟩ | ⟨ht, hs⟩ | ⟨ht, hs⟩ | ⟨ht, hs⟩ | ⟨ht, rfl⟩⟩ := observe_cases hstep
  · obtain ⟨hsub, hver, hrev, hrel⟩ := kinds_registered ht
    exact { h with
      relevant := h.relevant_snoc hrel
      milestones := h.milestones_snoc (if_pos ht)
      submitted := by rw [filterMap_snoc, hsub, ← h.submitted]; exact (List.append_nil _).symm
      accepted := by rw [filterMap_snoc, hver, ← h.accepted]; exact (List.append_nil _).symm
      rejected := by rw [filterMap_snoc, hver, ← h.rejected]; exact (List.append_nil _).symm
      reviews := by rw [filterMap_snoc, hrev, ← h.reviews]; exact (List.append_nil _).symm }
  · obtain ⟨hsub, hver, hrev, hrel⟩ := kinds_submitted ht
    obtain ⟨hfresh, rfl⟩ := submitted_ok hs
    exact { h with
      relevant := h.relevant_snoc hrel
      milestones := h.milestones_snoc (milestoneOf_submitted _ ht)
      submitted := by rw [filterMap_snoc, hsub, ← h.submitted]; rfl
      accepted := by rw [filterMap_snoc, hver, ← h.accepted]; exact (List.append_nil _).symm
      rejected := by rw [filterMap_snoc, hver, ← h.rejected]; exact (List.append_nil _).symm
      reviews := by rw [filterMap_snoc, hrev, ← h.reviews]; exact (List.append_nil _).symm
      submitted_once := List.nodup_append.mpr ⟨h.submitted_once, List.nodup_singleton _, fun a ha b hb => by
        rw [List.mem_singleton.mp hb]
        exact fun heq => hfresh (heq ▸ ha)⟩
      verdicts_submitted := fun x hx => List.mem_append_left _ (h.verdicts_submitted x hx) }
  · obtain ⟨proofId, accepted, hid, hsubmitted, hfresh, haccepted, rfl⟩ := verified_ok hs
    obtain ⟨hsub, hver, hrev, hrel⟩ := kinds_verification ht haccepted
    have hall : ((s.acceptedProofIds ++ if accepted then [proofId] else []) ++
        (s.rejectedProofIds ++ if accepted then [] else [proofId])).Perm
          (proofId :: (s.acceptedProofIds ++ s.rejectedProofIds)) := by
      cases accepted with
      | true => simp [List.perm_middle]
      | false =>
        rw [if_neg (by decide), if_neg (by decide), List.append_nil, ← List.append_assoc]
        exact List.perm_append_singleton _ _
    exact { h with
      relevant := h.relevant_snoc hrel
      milestones := h.milestones_snoc (hid ▸ milestoneOf_verification _ ht haccepted)
      submitted := by rw [filterMap_snoc, hsub, ← h.submitted]; exact (List.append_nil _).symm
      accepted := by rw [filterMap_snoc, hver, ← h.accepted, hid]; cases accepted <;> rfl
      rejected := by rw [filterMap_snoc, hver, ← h.rejected, hid]; cases accepted <;> rfl
      reviews := by rw [filterMap_snoc, hrev, ← h.reviews]; exact (List.append_nil _).symm
      verdicts_once := hall.nodup_iff.mpr (List.nodup_cons.mpr ⟨hfresh, h.verdicts_once⟩)
      verdicts_submitted := fun x hx => by
        rcases List.mem_cons.mp (hall.mem_iff.mp hx) with rfl | hx
        · exact hsubmitted
        · exact h.verdicts_submitted x hx }
  · obtain ⟨hsub, hver, hrev, hrel⟩ := kinds_review ht
    obtain ⟨hfresh, rfl⟩ := reviewed_ok hs
    rw [h.review_ids] at hfresh
    exact { h with
      relevant := h.relevant_snoc hrel
      milestones := h.milestones_snoc (milestoneOf_review _ ht)
      reviews_once := by
        rw [List.map_append, List.map_singleton]
        exact List.nodup_append.mpr ⟨h.reviews_once, List.nodup_singleton _, fun a ha b hb => by
          rw [List.mem_singleton.mp hb]
          exact fun heq => hfresh (heq ▸ ha)⟩
      submitted := by rw [filterMap_snoc, hsub, ← h.submitted]; exact (List.append_nil _).symm
      accepted := by rw [filterMap_snoc, hver, ← h.accepted]; exact (List.append_nil _).symm
      rejected := by rw [filterMap_snoc, hver, ← h.rejected]; exact (List.append_nil _).symm
      reviews := by rw [filterMap_snoc, hrev, ← h.reviews]; rfl
      review_ids := fun x => by
        rw [Finset.mem_insert, h.review_ids, List.map_append, List.mem_append, List.map_singleton, List.mem_singleton]
        exact or_comm }
  · obtain ⟨hsub, hver, hrev⟩ := kinds_other ht
    exact { h with
      relevant := by rw [List.filter_append, ← h.relevant]; simp [ht]
      submitted := by rw [filterMap_snoc, hsub, ← h.submitted]; exact (List.append_nil _).symm
      accepted := by rw [filterMap_snoc, hver, ← h.accepted]; exact (List.append_nil _).symm
      rejected := by rw [filterMap_snoc, hver, ← h.rejected]; exact (List.append_nil _).symm
      reviews := by rw [filterMap_snoc, hrev, ← h.reviews]; exact (List.append_nil _).symm }

/-- An event changes nothing of what an accumulator was registered with. -/
theorem observe_identity (h : s.observe e = .ok s') :
    s'.taskId = s.taskId ∧ s'.registrationEvent = s.registrationEvent ∧ s'.builderFidelity = s.builderFidelity := by
  obtain ⟨-, ⟨-, rfl⟩ | ⟨-, hs⟩ | ⟨-, hs⟩ | ⟨-, hs⟩ | ⟨-, rfl⟩⟩ := observe_cases h
  · exact ⟨rfl, rfl, rfl⟩
  · obtain ⟨-, rfl⟩ := submitted_ok hs
    exact ⟨rfl, rfl, rfl⟩
  · obtain ⟨_, _, -, -, -, -, rfl⟩ := verified_ok hs
    exact ⟨rfl, rfl, rfl⟩
  · obtain ⟨-, rfl⟩ := reviewed_ok hs
    exact ⟨rfl, rfl, rfl⟩
  · exact ⟨rfl, rfl, rfl⟩

/-- An event is taken up when its proof is new, its verdict the first on a submitted proof, and its review new. -/
theorem observe_returns (hposition : s.registrationEvent.globalPosition ≤ e.globalPosition)
    (hsubmission : e.eventType = "proof.submitted" → proofIdOf e ∉ s.submittedProofIds)
    (hverdict : IsVerification e → ∃ proofId accepted, e.payload.text "proof_id" = some proofId ∧
      proofId ∈ s.submittedProofIds ∧ proofId ∉ s.acceptedProofIds ++ s.rejectedProofIds ∧
      verificationAccepted e = .ok accepted)
    (hreview : IsReview e → (unresolvedReviewAssumption e).id ∉ s.unresolvedReviewIds) : ∃ s',
      s.observe e = .ok s' := by
  unfold PhaseFeedbackState.observe
  rw [show ensure (¬ e.globalPosition < s.registrationEvent.globalPosition) _ = .ok () from
    ensure_eq_ok.mpr (not_lt.mpr hposition), ok_bind]
  split_ifs with h₁ h₂ h₃ h₄
  · exact ⟨_, rfl⟩
  · exact ⟨_, ensure_bind_eq_ok.mpr ⟨hsubmission h₂, rfl⟩⟩
  · obtain ⟨proofId, accepted, hid, hsubmitted, hfresh, haccepted⟩ := hverdict h₃
    rw [List.mem_append, not_or] at hfresh
    unfold PhaseFeedbackState.verified
    rw [hid]
    exact ⟨_, ensure_bind_eq_ok.mpr ⟨hsubmitted, ensure_bind_eq_ok.mpr ⟨hfresh, bind_eq_ok.mpr ⟨_, haccepted, rfl⟩⟩⟩⟩
  · exact ⟨_, ensure_bind_eq_ok.mpr ⟨hreview h₄, rfl⟩⟩
  · exact ⟨_, rfl⟩

end Observe

/-! The two loops -/

/-- The accumulator a registration opens. -/
def registeredState (e : StoredEvent) : Option PhaseFeedbackState :=
  if e.eventType = "task.registered" then phaseFeedbackRegistration e (eventTaskId e) else none

theorem foldlM_registerState {states : List PhaseFeedbackState} {events : List StoredEvent}
    (h : ((states ++ events.filterMap registeredState).map (·.taskId)).Nodup) :
    events.foldlM registerState states = .ok (states ++ events.filterMap registeredState) := by
  induction events generalizing states with
  | nil => simp [pure, Except.pure]
  | cons e rest ih =>
    have hstep : registerState states e = .ok (states ++ (registeredState e).toList) := by
      unfold registerState
      cases hopened : registeredState e with
      | none =>
        unfold registeredState at hopened
        split
        · rename_i het
          rw [if_pos het] at hopened
          rw [hopened]
          simp [pure, Except.pure]
        · simp [pure, Except.pure]
      | some state =>
        have hfresh : state.taskId ∉ states.map (·.taskId) := by
          rw [List.filterMap_cons_some hopened, List.map_append, List.map_cons] at h
          exact fun hmem => List.disjoint_of_nodup_append h hmem List.mem_cons_self
        unfold registeredState at hopened
        split at hopened
        · rename_i het
          rw [if_pos het, hopened]
          exact ensure_bind_eq_ok.mpr ⟨hfresh, rfl⟩
        · cases hopened
    have hsplit : states ++ (e :: rest).filterMap registeredState =
        (states ++ (registeredState e).toList) ++ rest.filterMap registeredState := by
      rw [List.append_assoc]
      cases hopened : registeredState e with
      | none => rw [List.filterMap_cons_none hopened]; rfl
      | some state => rw [List.filterMap_cons_some hopened]; rfl
    rw [hsplit] at h ⊢
    rw [List.foldlM_cons, hstep]
    exact ih h

/-- The accumulators stand for the registrations, and hold what the seen events say. -/
structure Replayed (opened : List PhaseFeedbackState) (seen : List StoredEvent) (states : List PhaseFeedbackState) :
    Prop where
  same : states.map (fun s => (s.taskId, s.registrationEvent, s.builderFidelity)) =
    opened.map fun s => (s.taskId, s.registrationEvent, s.builderFidelity)
  observed : ∀ s ∈ states, Observed (aboutTask s.taskId seen) s
  distinct : (states.map (·.taskId)).Nodup

section Loops
variable {opened states states' : List PhaseFeedbackState} {seen : List StoredEvent} {e : StoredEvent}

theorem aboutTask_snoc (taskId : String) (seen : List StoredEvent) (e : StoredEvent) :
    aboutTask taskId (seen ++ [e]) = if eventTaskId e = some taskId then aboutTask taskId seen ++ [e]
      else aboutTask taskId seen := by
  unfold aboutTask
  rw [List.filter_append]
  split
  · rename_i h
    simp [h]
  · rename_i h
    simp [h]

theorem Replayed.step (h : Replayed opened seen states) (hstep : observeState states e = .ok states') :
    Replayed opened (seen ++ [e]) states' := by
  unfold observeState at hstep
  split at hstep
  · rename_i hnone
    cases hstep
    refine ⟨h.same, fun s hs => ?_, h.distinct⟩
    rw [aboutTask_snoc, if_neg]
    · exact h.observed s hs
    · intro htask
      rw [htask, Option.bind_some, List.find?_eq_none] at hnone
      exact hnone s hs (decide_eq_true rfl)
  · rename_i state hfound
    obtain ⟨taskId, htask, hfound⟩ := Option.bind_eq_some_iff.mp hfound
    obtain ⟨observed, hobserved, hstep⟩ := bind_eq_ok.mp hstep
    cases hstep
    have hstate : state.taskId = taskId := by simpa using List.find?_some hfound
    have hmem := List.mem_of_find?_eq_some hfound
    obtain ⟨hid, hregistration, hfidelity⟩ := observe_identity hobserved
    have hreplaced {other : PhaseFeedbackState} (hother : other ∈ states) (heq : other.taskId = state.taskId) :
        other = state := List.inj_on_of_nodup_map h.distinct hother hmem heq
    have hsame : (states.map fun other => if other.taskId = state.taskId then observed else other).map
        (fun s => (s.taskId, s.registrationEvent, s.builderFidelity)) =
          states.map fun s => (s.taskId, s.registrationEvent, s.builderFidelity) := by
      rw [List.map_map]
      apply List.map_congr_left
      intro other hother
      by_cases heq : other.taskId = state.taskId
      · cases hreplaced hother heq
        rw [Function.comp, if_pos rfl, hid, hregistration, hfidelity]
      · simp only [Function.comp, if_neg heq]
    refine ⟨hsame.trans h.same, ?_, ?_⟩
    · refine List.forall_mem_map.mpr fun other hother => ?_
      by_cases heq : other.taskId = state.taskId
      · rw [if_pos heq, hid, aboutTask_snoc, if_pos (by rw [htask, hstate])]
        exact (h.observed state hmem).step hobserved
      · rw [if_neg heq, aboutTask_snoc, if_neg]
        · exact h.observed other hother
        · rw [htask, ← hstate]
          exact fun htaken => heq (Option.some.inj htaken).symm
    · have hids : (states.map fun other => if other.taskId = state.taskId then observed else other).map (·.taskId) =
          states.map (·.taskId) := by
        rw [List.map_map]
        apply List.map_congr_left
        intro other _
        by_cases heq : other.taskId = state.taskId
        · rw [Function.comp, if_pos heq, hid, heq]
        · rw [Function.comp, if_neg heq]
      rw [hids]
      exact h.distinct

/-- What a replay of events holds. -/
theorem Replayed.run {events : List StoredEvent} (h : Replayed opened seen states)
    (hrun : events.foldlM observeState states = .ok states') : Replayed opened (seen ++ events) states' := by
  induction events generalizing seen states with
  | nil =>
    cases hrun
    rwa [List.append_nil]
  | cons e rest ih =>
    rw [List.foldlM_cons] at hrun
    obtain ⟨next, hstep, hrun⟩ := bind_eq_ok.mp hrun
    rw [List.append_cons]
    exact ih (h.step hstep) hrun

/-- A replay that returns has returned at each event. -/
theorem foldlM_observeState_split {front back : List StoredEvent}
    (hrun : (front ++ e :: back).foldlM observeState states = .ok states') :
    ∃ mid next, front.foldlM observeState states = .ok mid ∧ observeState mid e = .ok next := by
  rw [List.foldlM_append] at hrun
  obtain ⟨mid, hfront, hrun⟩ := bind_eq_ok.mp hrun
  rw [List.foldlM_cons] at hrun
  obtain ⟨next, hstep, -⟩ := bind_eq_ok.mp hrun
  exact ⟨mid, next, hfront, hstep⟩

/-- A replay returns when every event is taken up by the accumulator of its bundle. -/
theorem Replayed.returns {rest : List StoredEvent} (h : Replayed opened seen states)
    (hevents : ∀ front e back mid, rest = front ++ e :: back → Replayed opened (seen ++ front) mid →
      ∀ s ∈ mid, eventTaskId e = some s.taskId → ∃ s', s.observe e = .ok s') :
    ∃ states', rest.foldlM observeState states = .ok states' := by
  induction rest generalizing seen states with
  | nil => exact ⟨states, rfl⟩
  | cons e rest ih =>
    have hstep : ∃ next, observeState states e = .ok next := by
      unfold observeState
      split
      · exact ⟨_, rfl⟩
      · rename_i state hfound
        obtain ⟨taskId, htask, hfound⟩ := Option.bind_eq_some_iff.mp hfound
        have hstate : state.taskId = taskId := by simpa using List.find?_some hfound
        obtain ⟨observed, hobserved⟩ := hevents [] e rest states rfl (by rwa [List.append_nil]) state
          (List.mem_of_find?_eq_some hfound) (by rw [htask, hstate])
        rw [hobserved]
        exact ⟨_, rfl⟩
    obtain ⟨next, hnext⟩ := hstep
    obtain ⟨states', hrun⟩ := ih (h.step hnext) fun front e' back mid hsplit hmid => by
      rw [List.append_assoc] at hmid
      exact hevents (e :: front) e' back mid (by rw [hsplit]; rfl) hmid
    refine ⟨states', ?_⟩
    rw [List.foldlM_cons, hnext]
    exact hrun

end Loops

end Autolean.ControlPlane.Projection
