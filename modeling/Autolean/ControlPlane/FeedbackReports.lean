import Autolean.ControlPlane.FeedbackRuns
import Autolean.Machine.Raising

/-! The phase feedback of reachable logs: what each item reports, and that it is shown for every
bundle unless two reviews collide. -/
namespace Autolean.ControlPlane.Projection
open Contracts Machine Raising

/-! The summary of the candidates -/

/-- Every submission of a proof is pending or has its one verdict. -/
theorem pending_perm {past : List StoredEvent} {s : PhaseFeedbackState} (h : Observed past s) :
    s.submittedProofIds.Perm (s.pending ++ (s.acceptedProofIds ++ s.rejectedProofIds)) := by
  have hpending : s.pending.Nodup := h.submitted_once.filter _
  apply (List.perm_ext_iff_of_nodup h.submitted_once _).mpr
  · intro proofId
    rw [List.mem_append]
    constructor
    · intro hmem
      by_cases hdone : proofId ∈ s.acceptedProofIds ++ s.rejectedProofIds
      · exact .inr hdone
      · rw [List.mem_append, not_or] at hdone
        exact .inl (List.mem_filter.mpr ⟨hmem, decide_eq_true hdone⟩)
    · rintro (hmem | hmem)
      · exact (List.mem_filter.mp hmem).1
      · exact h.verdicts_submitted proofId hmem
  · refine List.nodup_append.mpr ⟨hpending, h.verdicts_once, fun x hx y hy heq => ?_⟩
    have hopen := of_decide_eq_true (List.mem_filter.mp hx).2
    rw [heq] at hopen
    rcases List.mem_append.mp hy with haccepted | hrejected
    · exact hopen.1 haccepted
    · exact hopen.2 hrejected

/-- The summary promises a verified candidate when every submission was accepted, and only then. -/
theorem proverVerificationState_eq_verified {submitted pending accepted rejected : List String}
    (h : submitted.Perm (pending ++ (accepted ++ rejected))) :
    proverVerificationState submitted pending accepted rejected = "verified_candidate_available" ↔
      submitted ≠ [] ∧ submitted.Perm accepted := by
  unfold proverVerificationState
  have hempty : submitted = [] ↔ pending = [] ∧ accepted = [] ∧ rejected = [] := by
    constructor
    · rintro rfl
      simpa using h.symm.eq_nil
    · rintro ⟨rfl, rfl, rfl⟩
      simpa using h
  have hall : submitted.Perm accepted ↔ pending = [] ∧ rejected = [] := by
    constructor
    · intro hperm
      have hlength := h.length_eq
      rw [hperm.length_eq, List.length_append, List.length_append] at hlength
      exact ⟨List.length_eq_zero_iff.mp (by omega), List.length_eq_zero_iff.mp (by omega)⟩
    · rintro ⟨rfl, rfl⟩
      simpa using h
  rw [hall]
  cases submitted <;> cases pending <;> cases accepted <;> cases rejected <;> simp_all

/-! An item -/

/-- The item tells of its bundle what the events about it say. -/
structure ReportsBundle (events : List StoredEvent) (f : PhaseFeedback) : Prop where
  submitted : f.proverVerification.submittedProofIds = (aboutTask f.taskId events).filterMap submittedProof
  accepted : f.proverVerification.acceptedProofIds = (aboutTask f.taskId events).filterMap (verdictOn true)
  rejected : f.proverVerification.rejectedProofIds = (aboutTask f.taskId events).filterMap (verdictOn false)
  submitted_once : f.proverVerification.submittedProofIds.Nodup
  partition : f.proverVerification.submittedProofIds.Perm (f.proverVerification.pendingProofIds ++
    (f.proverVerification.acceptedProofIds ++ f.proverVerification.rejectedProofIds))
  verified : f.proverVerification.state = "verified_candidate_available" ↔ f.proverVerification.submittedProofIds ≠ [] ∧
    f.proverVerification.submittedProofIds.Perm f.proverVerification.acceptedProofIds
  reviews : f.unresolvedHumanReviewAssumptions = (aboutTask f.taskId events).filterMap openedReview
  sequences : f.replay.relevantEventSequences =
    ((aboutTask f.taskId events).filter fun e => Relevant e).map (·.globalPosition)
  ascending : f.replay.relevantEventSequences.Pairwise (· < ·)
  milestones : f.milestones.map (·.sourceEventSequence) = f.replay.relevantEventSequences
  anchored : f.replay.relevantEventSequences.head? = some f.builderFidelity.registrationEventSequence
  first : f.replay.relevantEventSequences.head? = some f.replay.firstRelevantEventSequence
  last : f.replay.relevantEventSequences.getLast? = some f.replay.lastRelevantEventSequence
  head : (events.getLast?).map (·.globalPosition) = some f.replay.replayHeadEventSequence

section Item
variable {θ : Type} {svc : Service} {commands : θ → Command} {w : World} {states : List PhaseFeedbackState}
  {s : PhaseFeedbackState} {order : SetOrder} {nodes : List NodeIdentity}

/-- The relevant events of a bundle ascend, from its registration on. -/
theorem relevant_anchored (h : Lawful svc commands w) (hp : Presents svc commands)
    (hrep : Replayed (openedStates w) w.database.events states) (hs : s ∈ states) :
    (s.relevantEvents.map (·.globalPosition)).Pairwise (· < ·) ∧ s.relevantEvents.head? = some s.registrationEvent := by
  have hrelevant := (hrep.observed s hs).relevant
  have hsub : s.relevantEvents.Sublist w.database.events := by
    rw [hrelevant]
    exact List.filter_sublist.trans List.filter_sublist
  have hascending : (s.relevantEvents.map (·.globalPosition)).Pairwise (· < ·) :=
    h.coherent.positions.sublist (hsub.map _)
  refine ⟨hascending, ?_⟩
  obtain ⟨bundle, assurance, hr, hid, htask, -⟩ := Replayed.registration h hp hrep hs
  have hmem : s.registrationEvent ∈ s.relevantEvents := by
    rw [hrelevant]
    exact List.mem_filter.mpr ⟨mem_aboutTask.mpr ⟨hr.mem, htask⟩, decide_eq_true (.inl hr.eventType)⟩
  cases hlist : s.relevantEvents with
  | nil =>
    rw [hlist] at hmem
    cases hmem
  | cons e rest =>
    have he : e ∈ s.relevantEvents := by
      rw [hlist]
      exact List.mem_cons_self
    have hetask : eventTaskId e = some s.taskId := by
      rw [hrelevant] at he
      exact (mem_aboutTask.mp (List.mem_filter.mp he).1).2
    obtain ⟨before, after, hl⟩ := List.append_of_mem (hsub.subset he)
    rcases registration_first h hl hr (hetask.trans (congrArg some hid)) with heq | hbefore
    · rw [List.head?_cons, heq]
    · have hlt := position_before h hl hbefore
      rw [hlist] at hmem
      rw [hlist, List.map_cons, List.pairwise_cons] at hascending
      rcases List.mem_cons.mp hmem with heq | hrest
      · rw [List.head?_cons, heq]
      · exact absurd (hascending.1 _ (List.mem_map_of_mem hrest)) (lt_asymm hlt)

/-- The item of every bundle is built, and reports it. -/
theorem feedbackItem_reports (order : SetOrder) (nodes : List NodeIdentity) (h : Lawful svc commands w)
    (hp : Presents svc commands)
    (hrep : Replayed (openedStates w) w.database.events states) (hs : s ∈ states) :
    ∃ f, feedbackItem order w.database.events nodes s = .ok f ∧ f.taskId = s.taskId ∧
      ReportsBundle w.database.events f := by
  have hobserved := hrep.observed s hs
  obtain ⟨hascending, hfirst⟩ := relevant_anchored h hp hrep hs
  obtain ⟨bundle, assurance, hr, hid, htask, hfidelity⟩ := Replayed.registration h hp hrep hs
  have hlast := List.getLast?_eq_some_getLast (List.ne_nil_of_mem (List.mem_of_head? hfirst))
  have hhead := List.getLast?_eq_some_getLast (List.ne_nil_of_mem hr.mem)
  refine ⟨_, by rw [feedbackItem, hfirst, hlast, hhead], rfl, ?_⟩
  have hmilestones : s.milestones.map (·.sourceEventSequence) = s.relevantEvents.map (·.globalPosition) := by
    rw [hobserved.milestones, List.map_map]
    exact List.map_congr_left fun e _ => milestoneOf_sequence _ e
  exact {
    submitted := hobserved.submitted
    accepted := hobserved.accepted
    rejected := hobserved.rejected
    submitted_once := hobserved.submitted_once
    partition := pending_perm hobserved
    verified := proverVerificationState_eq_verified (pending_perm hobserved)
    reviews := hobserved.reviews
    sequences := congrArg _ hobserved.relevant
    ascending := hascending
    milestones := hmilestones
    anchored := by
      rw [hfidelity]
      exact (List.head?_map ..).trans (congrArg _ hfirst)
    first := (List.head?_map ..).trans (congrArg _ hfirst)
    last := (List.getLast?_map ..).trans (congrArg _ hlast)
    head := congrArg _ hhead }

/-- The values that a loop returns carry the labels of its elements, in their order. -/
theorem mapM_labels {α β γ : Type} {l : List α} {f : α → Raises β} {ys : List β} {key : α → γ} {label : β → γ}
    (h : l.mapM f = .ok ys) (hlabel : ∀ x ∈ l, ∀ y, f x = .ok y → label y = key x) : ys.map label = l.map key := by
  induction l generalizing ys with
  | nil =>
    cases h
    rfl
  | cons x rest ih =>
    obtain ⟨hx, hrest⟩ := List.forall_mem_cons.mp hlabel
    rw [List.mapM_cons] at h
    obtain ⟨y, hy, h⟩ := bind_eq_ok.mp h
    obtain ⟨zs, hzs, h⟩ := bind_eq_ok.mp h
    cases h
    rw [List.map_cons, List.map_cons, hx y hy, ih hzs hrest]

theorem feedbackItem_taskId {events : List StoredEvent} {f : PhaseFeedback}
    (h : feedbackItem order events nodes s = .ok f) :
    f.taskId = s.taskId := by
  unfold feedbackItem at h
  split at h
  · cases h
    rfl
  · cases h

/-- The accumulators in the order of their bundles. -/
theorem sorted_distinct (hrep : Replayed (openedStates w) w.database.events states) :
    ((states.insertionSort fun a b => a.taskId ≤ b.taskId).map (·.taskId)).Pairwise (· < ·) := by
  have hperm := List.perm_insertionSort (fun a b : PhaseFeedbackState => a.taskId ≤ b.taskId) states
  have hsorted : (states.insertionSort fun a b => a.taskId ≤ b.taskId).Pairwise fun a b => a.taskId ≤ b.taskId :=
    List.pairwise_insertionSort _ _
  have hdistinct := (hperm.map (·.taskId)).nodup_iff.mpr hrep.distinct
  rw [List.pairwise_map]
  exact (hsorted.and (List.pairwise_map.mp hdistinct)).imp fun h => lt_of_le_of_ne h.1 h.2

/-- The feedback of a lawful log is shown whenever its replay returns. -/
theorem lawful_dashboard_iff (h : Lawful svc commands w) (hp : Presents svc commands) :
    (∃ shown, dashboard order w.database.events = .ok shown) ↔
      ∃ states, feedbackStates w.database.events = .ok states := by
  obtain ⟨snap, hsnap, -⟩ := lawful_snapshot_agrees h
  rw [dashboard, hsnap, ok_bind, inOrder_events h]
  constructor
  · rintro ⟨shown, hshown⟩
    obtain ⟨feedback, hfeedback, -⟩ := bind_eq_ok.mp hshown
    obtain ⟨states, hstates, -⟩ := bind_eq_ok.mp hfeedback
    exact ⟨states, hstates⟩
  · rintro ⟨states, hstates⟩
    have hrep : Replayed (openedStates w) w.database.events states := by
      rw [lawful_feedbackStates h hp] at hstates
      simpa using (opened_replayed h hp).run hstates
    have hitems : ∀ s ∈ states.insertionSort fun a b => a.taskId ≤ b.taskId,
        ∃ f, feedbackItem order w.database.events (snap.nodes.map (·.toNodeIdentity)) s = .ok f := by
      intro s hs
      obtain ⟨f, hf, -⟩ := feedbackItem_reports order (snap.nodes.map (·.toNodeIdentity)) h hp hrep
        ((List.perm_insertionSort _ _).mem_iff.mp hs)
      exact ⟨f, hf⟩
    obtain ⟨feedback, hfeedback⟩ := mapM_returns hitems
    refine ⟨(snap, feedback), ?_⟩
    rw [phaseFeedback, hstates, ok_bind, hfeedback]
    rfl

/-- What a dashboard of a lawful log shows: each registered bundle once, in order, as the log tells of it. -/
theorem lawful_dashboard_reports (h : Lawful svc commands w) (hp : Presents svc commands) {snap : Snapshot}
    {feedback : List PhaseFeedback} (hshown : dashboard order w.database.events = .ok (snap, feedback)) :
    (feedback.map (·.taskId)).Pairwise (· < ·) ∧
      (∀ taskId, taskId ∈ feedback.map (·.taskId) ↔
        ∃ e ∈ w.database.events, e.eventType = "task.registered" ∧ e.entityId = taskId) ∧
      ∀ f ∈ feedback, ReportsBundle w.database.events f := by
  rw [dashboard, inOrder_events h] at hshown
  obtain ⟨snap', -, hshown⟩ := bind_eq_ok.mp hshown
  obtain ⟨feedback', hfeedback, hshown⟩ := bind_eq_ok.mp hshown
  cases hshown
  obtain ⟨states, hstates, hitems⟩ := bind_eq_ok.mp hfeedback
  rw [lawful_feedbackStates h hp] at hstates
  have hrep : Replayed (openedStates w) w.database.events states := by simpa using (opened_replayed h hp).run hstates
  have hmem {s : PhaseFeedbackState} : (s ∈ states.insertionSort fun a b => a.taskId ≤ b.taskId) ↔ s ∈ states :=
    (List.perm_insertionSort _ _).mem_iff
  have hids : feedback.map (·.taskId) = (states.insertionSort fun a b => a.taskId ≤ b.taskId).map (·.taskId) :=
    mapM_labels hitems fun s _ f hf => feedbackItem_taskId hf
  refine ⟨hids ▸ sorted_distinct hrep, fun taskId => ?_, fun f hf => ?_⟩
  · rw [hids, List.mem_map]
    constructor
    · rintro ⟨s, hs, rfl⟩
      obtain ⟨bundle, assurance, hr, hid, -⟩ := Replayed.registration h hp hrep (hmem.mp hs)
      exact ⟨s.registrationEvent, hr.mem, hr.eventType, hr.entityId.trans hid.symm⟩
    · rintro ⟨e, he, het, rfl⟩
      obtain ⟨bundle, assurance, hr, -⟩ := lawful_declared h he het
      obtain ⟨s, hs, hid, -⟩ := Replayed.state h hp hrep hr
      exact ⟨s, hmem.mpr hs, hid.trans hr.entityId.symm⟩
  · obtain ⟨s, hs, hitem⟩ := (mapM_ok hitems).2 f hf
    obtain ⟨f', hf', -, hreports⟩ := feedbackItem_reports order (snap.nodes.map (·.toNodeIdentity)) h hp hrep
      (hmem.mp hs)
    rw [hitem, Except.ok.injEq] at hf'
    exact hf' ▸ hreports

end Item

/-- The dashboard of a reachable log is shown exactly when no gap report and contract change
request of one bundle share an identifier, and then it has one item for each registered bundle,
in order, that reports its submissions, verdicts and reviews as the log tells of them. -/
theorem phase_feedback_exact {θ : Type} [DecidableEq θ] (svc : Service) (commands : θ → Command)
    (labels : List (θ × ServiceInput)) (order : SetOrder) (hp : Presents svc commands) :
    let events := (run (CommandPool.step svc) (CommandPool.start svc commands) labels).state.database.events
    ((∃ shown, dashboard order events = .ok shown) ↔ ∀ e ∈ events, ∀ e' ∈ events, ¬ ReviewsCollide e e') ∧
      ∀ snap feedback, dashboard order events = .ok (snap, feedback) →
        (feedback.map (·.taskId)).Pairwise (· < ·) ∧
        (∀ taskId, taskId ∈ feedback.map (·.taskId) ↔
          ∃ e ∈ events, e.eventType = "task.registered" ∧ e.entityId = taskId) ∧
        ∀ f ∈ feedback, ReportsBundle events f := by
  have hw := (run_sound_any svc commands labels).inv
  intro events
  refine ⟨?_, fun snap feedback hshown => lawful_dashboard_reports hw hp hshown⟩
  exact (lawful_dashboard_iff hw hp).trans (lawful_replay_iff hw hp)

/-! A gap report and a contract change request under one identifier -/

instance ReviewsCollide.decidable (e e' : StoredEvent) : Decidable (ReviewsCollide e e') :=
  inferInstanceAs (Decidable (_ ∧ _ ∧ _ ∧ _))

def sampleGapReport : GapReport := ⟨sampleId, sampleId, 1, sampleDigest, .missingLemma, []⟩

def sampleChangeRequest : ContractChangeRequest := ⟨sampleId, sampleId, 1, sampleDigest, []⟩

def reviewingCommands : Fin 4 → Command
  | 0 => .registerBundle (sampleBundle []) "register"
  | 1 => .claimLease sampleId.value "worker" 60
  | 2 => .reportGap sampleId.value sampleLeaseOf sampleGapReport "report"
  | 3 => .requestContractChange sampleId.value sampleLeaseOf sampleChangeRequest "request"

/-- The gap is reported, and nothing else. -/
def reportingRun : List (Fin 4 × ServiceInput) :=
  List.replicate 4 (stepOf 0 0 'a') ++ [stepOf 1 0 'b'] ++ List.replicate 5 (stepOf 2 0 'c')

/-- A change is requested as well. -/
def reviewingRun : List (Fin 4 × ServiceInput) := reportingRun ++ List.replicate 5 (stepOf 3 0 'd')

theorem presents_reviewing : Presents sampleService reviewingCommands where
  isoformat d := by
    simp only [sampleService]
    split <;> decide
  contracts := by
    have only (i : Fin 4) (bundle : FormalizationTaskBundle) (key : String)
        (h : reviewingCommands i = .registerBundle bundle key) : bundle = sampleBundle [] := by
      fin_cases i
      · exact (Command.registerBundle.inj h).1.symm
      all_goals cases h
    rintro _ ⟨i, bundle, key, hi, rfl⟩ _ ⟨j, bundle', key', hj, rfl⟩ -
    rw [only i bundle key hi, only j bundle' key' hj]

theorem phase_feedback_exact_reviewing :
    let log labels := (run (CommandPool.step sampleService)
      (CommandPool.start sampleService reviewingCommands) labels).state.database.events
    (∃ shown, dashboard .ascending (log reportingRun) = .ok shown) ∧ ¬ ∃ shown, dashboard .ascending
      (log reviewingRun) = .ok shown := by
  intro log
  have hexact labels := (phase_feedback_exact sampleService reviewingCommands labels .ascending presents_reviewing).1
  refine ⟨(hexact reportingRun).mpr (by decide +kernel), fun hshown => ?_⟩
  have hapart := (hexact reviewingRun).mp hshown
  have hcollide : ∃ e ∈ log reviewingRun, ∃ e' ∈ log reviewingRun, ReviewsCollide e e' := by decide +kernel
  obtain ⟨e, he, e', he', h⟩ := hcollide
  exact hapart e he e' he' h

end Autolean.ControlPlane.Projection
