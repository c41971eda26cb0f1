import Autolean.Dashboard.ExportedViews

/-! The phase feedback that a reachable log exports, against what the reader requires of it. -/
namespace Autolean.Dashboard
open ControlPlane ControlPlane.Projection Contracts Machine Raising

variable {θ : Type} {svc : Service} {commands : θ → Command} {w : World} {e : StoredEvent}

/-! The events that the feedback takes up -/

/-- A relevant event, the identifier of its stream, and its milestone. -/
inductive RelevantEvent (evidence : Option String) (e : StoredEvent) : Prop where
  | registered (het : e.eventType = "task.registered")
      (hm : milestoneOf evidence e = feedbackMilestone "builder_fidelity" "recorded" e evidence none none)
  | submitted (het : e.eventType = "proof.submitted") (hid : proofIdOf e = e.entityId)
      (hm : milestoneOf evidence e = feedbackMilestone "prover_candidate" "pending" e
        (artifactDigest e.payload "proof_artifact") (some e.entityId) none)
  | verification (hv : IsVerification e) (accepted : Bool) (ha : verificationAccepted e = .ok accepted)
      (hid : e.payload.text "proof_id" = some e.entityId)
      (hm : milestoneOf evidence e =
        feedbackMilestone "prover_verification" (if accepted then "accepted" else "rejected") e
          (artifactDigest e.payload "verification_artifact") (some e.entityId) none)
  | review (hr : IsReview e) (hid : (unresolvedReviewAssumption e).id = e.entityId)
      (hm : milestoneOf evidence e = feedbackMilestone "human_review" "unresolved" e
        (unresolvedReviewAssumption e).evidenceDigest none (some e.entityId))

theorem relevantEvent (h : Lawful svc commands w) (he : e ∈ w.database.events) (hrel : Relevant e)
    (evidence : Option String) : RelevantEvent evidence e := by
  rcases hrel with het | het | hv | hr
  · exact .registered het (if_pos het)
  · have hid := (lawful_submitted h he het).1
    exact .submitted het hid (hid ▸ milestoneOf_submitted evidence het)
  · have hid := (lawful_verification h he hv).2
    obtain ⟨accepted, ha⟩ := lawful_replayable h he hv
    exact .verification hv accepted ha hid (hid ▸ milestoneOf_verification evidence hv ha)
  · have hid := (lawful_review h he hr).1
    exact .review hr hid (hid ▸ milestoneOf_review evidence hr)

theorem verification_not_review (hv : IsVerification e) : ¬ IsReview e := by
  rintro (het | het)
  · exact verification_eventType_ne hv (by decide) het
  · exact verification_eventType_ne hv (by decide) het

/-- The stream of an event that is not about a bundle alone has a durable identifier. -/
theorem lawful_entityId (h : Lawful svc commands w) (he : e ∈ w.database.events) (hne : e.entityType ≠ "task") :
    ∃ i : StableIdentifier, e.entityId = i.value := by
  obtain ⟨before, after, hl⟩ := List.append_of_mem he
  have hkind := h.kind he
  simp only [eventKinds, List.mem_cons, List.not_mem_nil, or_false, Prod.mk.injEq] at hkind
  rcases hkind with ⟨ht, -⟩ | ⟨ht, -⟩ | ⟨ht, -⟩ | ⟨ht, -⟩ | ⟨ht, -⟩ | ⟨ht, -⟩ | ⟨ht, -⟩
  · exact absurd ht hne
  · exact absurd ht hne
  · obtain ⟨_, _, _, _, _, _, -, -, -, hid, -⟩ := h.submission hl ht
    exact ⟨_, hid⟩
  · obtain ⟨_, _, _, _, _, _, -, -, hid, -⟩ := h.gap hl ht
    exact ⟨_, hid⟩
  · obtain ⟨_, _, _, _, _, _, -, -, hid, -⟩ := h.change hl ht
    exact ⟨_, hid⟩
  all_goals
    obtain ⟨_, _, _, _, _, _, _, _, -, -, -, -, -, -, hid, -⟩ := h.verdict hl ht
    exact ⟨_, hid⟩

theorem fits_entityId (h : Lawful svc commands w) (he : e ∈ w.database.events) (hne : e.entityType ≠ "task") :
    Fits 256 e.entityId := by
  obtain ⟨i, hi⟩ := lawful_entityId h he hne
  exact hi ▸ fits_identifier i (by decide)

theorem fits_artifactDigest (h : Lawful svc commands w) (he : e ∈ w.database.events)
    (het : e.eventType ≠ "task.claimed") : ∀ d ∈ artifactDigest e.payload (artifactKey e), Fits 256 d := by
  intro d hd
  obtain ⟨artifact, hobj, hdigest⟩ := Option.bind_eq_some_iff.mp hd
  have hread := lawful_artifact_read h he het (a := ⟨d, (artifact.text "media_type").getD "application/octet-stream",
    (artifact.get "size").getD (.int 0), (artifact.text "kind").getD "artifact"⟩) (by
      rw [capturedArtifact, hobj, Option.bind_eq_bind, Option.bind_some, hdigest]
      rfl)
  exact (ensure_eq_ok.mp hread).1

/-! Milestones -/

theorem readMilestone_relevant (h : Lawful svc commands w) (hs : Stamped w.database.events)
    (he : e ∈ w.database.events) (hrel : Relevant e) {evidence : Option String}
    (hevidence : ∀ d ∈ evidence, Fits 256 d) : readMilestone (milestoneOf evidence e) = .ok () := by
  obtain ⟨hposition, hid, -⟩ := hs e he
  have hnone : ∀ d ∈ (none : Option String), Fits 256 d := fun d hd => by cases hd
  have hdigest (hne : e.eventType ≠ "task.claimed") := fits_artifactDigest h he hne
  have hentity (hne : e.entityType ≠ "task") : ∀ i ∈ some e.entityId, Fits 256 i := by
    intro i hi
    rw [← Option.mem_some_iff.mp hi]
    exact fits_entityId h he hne
  cases relevantEvent h he hrel evidence with
  | registered het hm =>
    rw [hm, readMilestone, seq_eq_ok, ensure_eq_ok]
    exact ⟨⟨by simp [feedbackMilestone], by simp [feedbackMilestone], hposition, hid, hevidence, hnone, hnone⟩,
      by simp [validatePhaseReference, feedbackMilestone, allowedStates, ensure]⟩
  | submitted het _ hm =>
    have hd := hdigest (by rw [het]; decide)
    rw [artifactKey, if_neg (by rw [het]; decide), if_pos het] at hd
    have hne : e.entityType ≠ "task" := by
      rw [(lawful_submitted h he het).2]
      decide
    rw [hm, readMilestone, seq_eq_ok, ensure_eq_ok]
    exact ⟨⟨by simp [feedbackMilestone], by simp [feedbackMilestone], hposition, hid, hd, hentity hne, hnone⟩,
      by simp [validatePhaseReference, feedbackMilestone, allowedStates, ensure]⟩
  | verification hv accepted _ _ hm =>
    have hother {t : String} := @verification_eventType_ne e t hv
    have hd := hdigest (hother (by decide))
    rw [artifactKey, if_neg (hother (by decide)), if_neg (hother (by decide)), if_neg (hother (by decide)),
      if_neg (hother (by decide))] at hd
    have hne : e.entityType ≠ "task" := by
      rw [(lawful_verification h he hv).1]
      decide
    rw [hm, readMilestone, seq_eq_ok, ensure_eq_ok]
    exact ⟨⟨by simp [feedbackMilestone], by cases accepted <;> simp [feedbackMilestone], hposition, hid, hd,
      hentity hne, hnone⟩,
      by cases accepted <;> simp [validatePhaseReference, feedbackMilestone, allowedStates, ensure]⟩
  | review hr _ hm =>
    have hd : ∀ d ∈ (unresolvedReviewAssumption e).evidenceDigest, Fits 256 d := by
      have hclaimed : e.eventType ≠ "task.claimed" := by
        rcases hr with het | het <;> (rw [het]; decide)
      have hd := hdigest hclaimed
      rcases hr with het | het
      · rw [artifactKey, if_neg (by rw [het]; decide), if_neg (by rw [het]; decide), if_pos het] at hd
        simpa [unresolvedReviewAssumption, het] using hd
      · rw [artifactKey, if_neg (by rw [het]; decide), if_neg (by rw [het]; decide), if_neg (by rw [het]; decide),
          if_pos het] at hd
        simpa [unresolvedReviewAssumption, het] using hd
    have hne : e.entityType ≠ "task" := by
      rw [(lawful_review h he hr).2]
      split <;> decide
    rw [hm, readMilestone, seq_eq_ok, ensure_eq_ok]
    exact ⟨⟨by simp [feedbackMilestone], by simp [feedbackMilestone], hposition, hid, hd, hnone, hentity hne⟩,
      by simp [validatePhaseReference, feedbackMilestone, allowedStates, ensure]⟩

/-! The candidates -/

theorem evidencePartition_accepted {submitted pending accepted rejected : List String} (hnodup : submitted.Nodup)
    (hne : "" ∉ submitted) (hperm : submitted.Perm (pending ++ (accepted ++ rejected))) :
    validateEvidencePartition ⟨proverVerificationState submitted pending accepted rejected,
      submitted, pending, accepted, rejected⟩ = .ok () := by
  have hall := hperm.nodup_iff.mp hnodup
  have hrest := hall.of_append_right
  have hmem {x : String} : x ∈ submitted ↔ x ∈ pending ∨ x ∈ accepted ∨ x ∈ rejected := by
    rw [hperm.mem_iff, List.mem_append, List.mem_append]
  have hapart := List.disjoint_of_nodup_append hall
  rw [List.disjoint_append_right] at hapart
  have hpopulated : ([pending.toFinset, accepted.toFinset, rejected.toFinset].filter (· ≠ ∅)).length =
      ([pending, accepted, rejected].filter (· ≠ [])).length := by
    cases pending <;> cases accepted <;> cases rejected <;> simp
  have hdisjoint {a b : List String} (h : a.Disjoint b) : a.toFinset ∩ b.toFinset = ∅ :=
    Finset.disjoint_iff_inter_eq_empty.mp (List.disjoint_toFinset_iff_disjoint.mpr h)
  refine seq_eq_ok.mpr ⟨ensure_eq_ok.mpr ?_, seq_eq_ok.mpr ⟨ensure_eq_ok.mpr ?_, seq_eq_ok.mpr ⟨ensure_eq_ok.mpr ?_,
    ensure_eq_ok.mpr ?_⟩⟩⟩
  · have hempty {l : List String} (hsub : ∀ x ∈ l, x ∈ submitted) : "" ∉ l := fun h => hne (hsub _ h)
    simp only [List.forall_mem_cons, List.not_mem_nil, false_imp_iff, implies_true, and_true]
    exact ⟨⟨hnodup, hne⟩, ⟨hall.of_append_left, hempty fun _ hx => hmem.mpr (.inl hx)⟩,
      ⟨hrest.of_append_left, hempty fun _ hx => hmem.mpr (.inr (.inl hx))⟩,
      ⟨hrest.of_append_right, hempty fun _ hx => hmem.mpr (.inr (.inr hx))⟩⟩
  · exact ⟨hdisjoint hapart.1, hdisjoint hapart.2, hdisjoint (List.disjoint_of_nodup_append hrest)⟩
  · ext x
    simp only [Finset.mem_union, List.mem_toFinset, hmem, or_assoc]
  · simp only [hpopulated, ne_eq, List.toFinset_eq_empty_iff]
    rfl

/-! The leverage -/

section Leverage
variable {order : SetOrder} {nodes : List NodeIdentity} {taskId : String}

theorem leverageKey_le {a b : LeverageRow} (h : RanksBefore a b) : leverageKey a ≤ leverageKey b := by
  unfold RanksBefore at h
  simp only [leverageKey, Prod.Lex.toLex_le_toLex]
  rcases h with h | ⟨h, h' | ⟨h', hid⟩⟩
  · exact .inl (by omega)
  · exact .inr ⟨by omega, .inl (by omega)⟩
  · exact .inr ⟨by omega, .inr ⟨by omega, hid⟩⟩

theorem directKey_le {a b : LeverageRow} (h : RanksBefore a b) (ha : a.transitiveDependents = none)
    (hb : b.transitiveDependents = none) : directKey a ≤ directKey b := by
  unfold RanksBefore at h
  rw [ha, hb] at h
  simp only [directKey, Prod.Lex.toLex_le_toLex]
  rcases h with h | ⟨-, h' | ⟨h', hid⟩⟩
  · exact absurd h (lt_irrefl _)
  · exact .inl (by omega)
  · exact .inr ⟨by omega, hid⟩

/-- Leverage over nodes with distinct identifiers passes the checks on it. -/
theorem leverage_accepted (hdistinct : ((byTask nodes taskId).map (·.id)).Nodup) :
    validateLeverage (mathematicalDependencyLeverage order nodes taskId) = .ok () := by
  have hperm := List.perm_insertionSort RanksBefore
    ((byTask nodes taskId).map (leverageRow order (byTask nodes taskId)))
  have hranked := List.pairwise_insertionSort RanksBefore
    ((byTask nodes taskId).map (leverageRow order (byTask nodes taskId)))
  have hrow {row : LeverageRow} (h : row ∈ (mathematicalDependencyLeverage order nodes taskId).rows) :
      ∃ node, row = leverageRow order (byTask nodes taskId) node := by
    obtain ⟨node, -, hnode⟩ := List.mem_map.mp (hperm.mem_iff.mp h)
    exact ⟨node, hnode.symm⟩
  have hids : ((mathematicalDependencyLeverage order nodes taskId).rows.map (·.nodeId)).Nodup := by
    refine (hperm.map _).nodup_iff.mpr ?_
    rw [List.map_map]
    exact hdistinct
  have hlength : (mathematicalDependencyLeverage order nodes taskId).rows.length = (byTask nodes taskId).length :=
    hperm.length_eq.trans (List.length_map ..)
  refine seq_eq_ok.mpr ⟨ensure_eq_ok.mpr hids, seq_eq_ok.mpr ⟨ensure_eq_ok.mpr hlength, ?_⟩⟩
  cases hexact : exactTransitive (byTask nodes taskId) with
  | true =>
    have hmode : (mathematicalDependencyLeverage order nodes taskId).mode = "exact_transitive" := if_pos hexact
    rw [if_pos hmode]
    refine seq_eq_ok.mpr ⟨ensure_eq_ok.mpr (of_decide_eq_true hexact), seq_eq_ok.mpr ⟨ensure_eq_ok.mpr ?_,
      ensure_eq_ok.mpr (List.Pairwise.insertionSort_eq (List.pairwise_map.mpr (hranked.imp leverageKey_le)))⟩⟩
    intro row hmem
    obtain ⟨node, rfl⟩ := hrow hmem
    rw [leverageRow, if_pos hexact]
    exact Option.some_ne_none _
  | false =>
    have hmode : (mathematicalDependencyLeverage order nodes taskId).mode = "direct_only_over_limit" := by
      apply if_neg
      rw [hexact]
      exact Bool.false_ne_true
    rw [if_neg (by rw [hmode]; decide)]
    have hnone {row : LeverageRow} (h : row ∈ (mathematicalDependencyLeverage order nodes taskId).rows) :
        row.transitiveDependents = none := by
      obtain ⟨node, rfl⟩ := hrow h
      apply if_neg
      rw [hexact]
      exact Bool.false_ne_true
    have hover : 512 < (byTask nodes taskId).length := not_le.mp (of_decide_eq_false hexact)
    refine seq_eq_ok.mpr ⟨ensure_eq_ok.mpr hover, seq_eq_ok.mpr ⟨ensure_eq_ok.mpr fun row hmem => hnone hmem, ?_⟩⟩
    refine ensure_eq_ok.mpr (List.Pairwise.insertionSort_eq (List.pairwise_map.mpr ?_))
    exact hranked.imp_of_mem fun ha hb h => directKey_le h (hnone ha) (hnone hb)

end Leverage

/-! The replay -/

/-- The linkage of relevant events to a log in order passes its checks. -/
theorem replay_accepted {events relevant : List StoredEvent} {first last head : StoredEvent}
    (hascending : (events.map (·.globalPosition)).Pairwise (· < ·)) (hstamped : Stamped events)
    (hrelevant : (relevant.map (·.globalPosition)).Pairwise (· < ·)) (hsub : ∀ e ∈ relevant, e ∈ events)
    (hfirst : relevant.head? = some first) (hlast : relevant.getLast? = some last)
    (hhead : events.getLast? = some head) : readReplay (replayOf events relevant first last head) = .ok () := by
  have hfirstMem := List.mem_of_head? hfirst
  have hlastMem := List.mem_of_getLast? hlast
  have hheadMem := List.mem_of_getLast? hhead
  have hle {e : StoredEvent} (he : e ∈ events) : e.globalPosition ≤ head.globalPosition := by
    obtain ⟨front, hfront⟩ := List.getLast?_eq_some_iff.mp hhead
    rw [hfront] at he hascending
    rw [List.map_append, List.pairwise_append] at hascending
    rcases List.mem_append.mp he with he | he
    · exact (hascending.2.2 _ (List.mem_map_of_mem he) _ (by simp)).le
    · rw [List.mem_singleton.mp he]
  have hpositive {e : StoredEvent} (he : e ∈ relevant) : 1 ≤ e.globalPosition := (hstamped e (hsub e he)).1
  have hlength : 1 ≤ relevant.length := List.length_pos_of_mem hfirstMem
  refine seq_eq_ok.mpr ⟨ensure_eq_ok.mpr ⟨hpositive hfirstMem, hpositive hlastMem, (hstamped _ (hsub _ hlastMem)).2.1,
    hlength, ?_, ?_, (hstamped _ hheadMem).1, (hstamped _ hheadMem).2.1⟩, ?_⟩
  · intro n hn
    obtain ⟨e, he, rfl⟩ := List.mem_map.mp hn
    exact hpositive he
  · exact fun hnil => absurd (List.map_eq_nil_iff.mp hnil) (List.ne_nil_of_mem hfirstMem)
  · refine seq_eq_ok.mpr ⟨ensure_eq_ok.mpr ?_, ?_⟩
    · exact (List.toFinset_sort (· ≤ ·) (hrelevant.imp fun h => h.ne)).mpr (hrelevant.imp fun h => h.le)
    refine seq_eq_ok.mpr ⟨ensure_eq_ok.mpr (List.length_map ..).symm, ?_⟩
    refine seq_eq_ok.mpr ⟨ensure_eq_ok.mpr ?_, ?_⟩
    · exact ⟨(List.head?_map ..).trans (congrArg _ hfirst), (List.getLast?_map ..).trans (congrArg _ hlast)⟩
    refine seq_eq_ok.mpr ⟨ensure_eq_ok.mpr (hle (hsub _ hlastMem)), ?_⟩
    refine seq_eq_ok.mpr ⟨ensure_eq_ok.mpr ?_, ?_⟩
    · simp [replayOf, eq_comm]
    refine seq_eq_ok.mpr ⟨ensure_eq_ok.mpr ?_, ensure_eq_ok.mpr ?_⟩
    · simp only [replayOf, List.countP_eq_zero, decide_eq_true_eq, not_lt]
      constructor
      · intro h
        exact le_antisymm (h head hheadMem) (hle (hsub _ hlastMem))
      · intro h e he
        exact h ▸ hle he
    · intro h
      have hdistinct := hascending.imp fun h => h.ne
      have hsame : last = head := List.inj_on_of_nodup_map hdistinct (hsub _ hlastMem) hheadMem h.symm
      exact ⟨congrArg (·.eventId) hsame, congrArg (·.recordedAt) hsame⟩

/-! The item of a bundle -/

section Item
variable {states : List PhaseFeedbackState} {s : PhaseFeedbackState}

theorem relevant_mem (hrep : Replayed (openedStates w) w.database.events states) (hs : s ∈ states)
    (he : e ∈ s.relevantEvents) : e ∈ w.database.events ∧ eventTaskId e = some s.taskId ∧ Relevant e := by
  rw [(hrep.observed s hs).relevant] at he
  obtain ⟨he, hrel⟩ := List.mem_filter.mp he
  obtain ⟨he, htask⟩ := mem_aboutTask.mp he
  exact ⟨he, htask, of_decide_eq_true hrel⟩

/-- What is taken from relevant events alone is taken from those that the accumulator holds. -/
theorem filterMap_relevant {β : Type} {f : StoredEvent → Option β}
    (hrep : Replayed (openedStates w) w.database.events states) (hs : s ∈ states)
    (hf : ∀ e, ¬ Relevant e → f e = none) :
    (aboutTask s.taskId w.database.events).filterMap f = s.relevantEvents.filterMap f := by
  rw [(hrep.observed s hs).relevant, List.filterMap_filter]
  apply List.filterMap_congr
  intro e _
  split
  · rfl
  · rename_i hrel
    exact hf e fun h => hrel (decide_eq_true h)

theorem filterMap_relevant_congr {β : Type} {f g : StoredEvent → Option β}
    (hrep : Replayed (openedStates w) w.database.events states) (hs : s ∈ states)
    (hfg : ∀ e ∈ w.database.events, Relevant e → f e = g e) :
    s.relevantEvents.filterMap f = s.relevantEvents.filterMap g := by
  apply List.filterMap_congr
  intro e he
  obtain ⟨hmem, -, hrel⟩ := relevant_mem hrep hs he
  exact hfg e hmem hrel

/-- The proof and the position of a submission. -/
def candidateOf (e : StoredEvent) : Option (String × Nat) :=
  if e.eventType = "proof.submitted" then some (e.entityId, e.globalPosition) else none

/-- The proof and the milestone of a verdict. -/
def terminalOf (evidence : Option String) (e : StoredEvent) : Option (String × Milestone) :=
  if IsVerification e then some (e.entityId, milestoneOf evidence e) else none

/-- The identifier and the place of a review. -/
def reviewOf (e : StoredEvent) : Option (String × Nat × String) :=
  if IsReview e then some (e.entityId, e.globalPosition, e.eventId) else none

theorem candidateOf_eq (h : Lawful svc commands w) (he : e ∈ w.database.events) (hrel : Relevant e)
    (evidence : Option String) : (if (milestoneOf evidence e).phase = "prover_candidate" then
      (milestoneOf evidence e).proofId.map fun proofId => (proofId, (milestoneOf evidence e).sourceEventSequence)
    else none) = candidateOf e ∧ (Projection.submittedProof e = (candidateOf e).map (·.1)) := by
  cases relevantEvent h he hrel evidence with
  | registered het hm => simp [hm, feedbackMilestone, candidateOf, Projection.submittedProof, het]
  | submitted het hid hm => simp [hm, feedbackMilestone, candidateOf, Projection.submittedProof, het, hid]
  | verification hv accepted ha hid hm =>
    have het : e.eventType ≠ "proof.submitted" := verification_eventType_ne hv (by decide)
    simp [hm, feedbackMilestone, candidateOf, Projection.submittedProof, het]
  | review hr hid hm =>
    have hne : e.eventType ≠ "proof.submitted" := by
      rcases hr with het | het <;> (rw [het]; decide)
    simp [hm, feedbackMilestone, candidateOf, Projection.submittedProof, hne]

theorem reviewOf_eq (h : Lawful svc commands w) (he : e ∈ w.database.events) (hrel : Relevant e)
    (evidence : Option String) : (if (milestoneOf evidence e).phase = "human_review" then
      (milestoneOf evidence e).reviewAssumptionId.map fun id => (id, (milestoneOf evidence e).sourceEventSequence,
        (milestoneOf evidence e).sourceEventId)
    else none) = reviewOf e ∧
      (openedReview e).map (fun r => (r.id, r.sourceEventSequence, r.sourceEventId)) = reviewOf e := by
  cases relevantEvent h he hrel evidence with
  | registered het hm =>
    have hr : ¬ IsReview e := by simp [IsReview, het]
    simp [hm, feedbackMilestone, reviewOf, openedReview, hr]
  | submitted het hid hm =>
    have hr : ¬ IsReview e := by simp [IsReview, het]
    simp [hm, feedbackMilestone, reviewOf, openedReview, hr]
  | verification hv accepted ha hid hm =>
    have hr := verification_not_review hv
    simp [hm, feedbackMilestone, reviewOf, openedReview, hr]
  | review hr hid hm =>
    simp only [hm, reviewOf, openedReview, if_pos hr, Option.map_some, hid]
    exact ⟨rfl, rfl⟩

/-- No earlier verdict of an accumulator is about the proof of a verdict. -/
theorem verdict_fresh (h : Lawful svc commands w) (hp : Presents svc commands)
    (hrep : Replayed (openedStates w) w.database.events states) (hs : s ∈ states) (evidence : Option String)
    {front rest : List StoredEvent} (hsplit : s.relevantEvents = front ++ e :: rest) (hv : IsVerification e) :
    lastWrite (front.filterMap (terminalOf evidence)) e.entityId = none := by
  obtain ⟨hascending, -⟩ := relevant_anchored h hp hrep hs
  obtain ⟨he, -⟩ := relevant_mem hrep hs (e := e) (by simp [hsplit])
  rw [lastWrite_eq_none]
  intro hkey
  obtain ⟨⟨proofId, m⟩, hterminal, hproof⟩ := List.mem_map.mp hkey
  obtain ⟨e', he', hterminal⟩ := List.mem_filterMap.mp hterminal
  unfold terminalOf at hterminal
  split at hterminal
  · rename_i hv'
    have hentity : e'.entityId = e.entityId := (Prod.mk.inj (Option.some.inj hterminal)).1.trans hproof
    obtain ⟨hmem', -⟩ := relevant_mem hrep hs (e := e') (by simp [hsplit, he'])
    have ht := (lawful_verification h he hv).1
    have ht' := (lawful_verification h hmem' hv').1
    have hsame : e' = e := h.alone hmem' he (ht'.trans ht.symm) hentity (by rw [ht']; decide)
    rw [hsplit, List.map_append, List.pairwise_append] at hascending
    have hlt := hascending.2.2 e'.globalPosition (List.mem_map_of_mem he') e.globalPosition (by simp)
    rw [hsame] at hlt
    exact absurd hlt (lt_irrefl _)
  · cases hterminal

/-- The candidate that a verdict is about was submitted before it. -/
theorem verdict_candidate (h : Lawful svc commands w) (hp : Presents svc commands)
    (hrep : Replayed (openedStates w) w.database.events states) (hs : s ∈ states) (hmem : e ∈ s.relevantEvents)
    (hv : IsVerification e) : ∃ position,
      lastWrite (s.relevantEvents.filterMap candidateOf) e.entityId = some position ∧ position < e.globalPosition := by
  obtain ⟨he, htask, -⟩ := relevant_mem hrep hs hmem
  obtain ⟨before, after, hl⟩ := List.append_of_mem he
  obtain ⟨p, hpbefore, hpt, hpid, hptask⟩ := lawful_verdict_submission h hp hl hv
  have hplog := subset_before hl hpbefore
  have hpmem : p ∈ s.relevantEvents := by
    rw [(hrep.observed s hs).relevant]
    exact List.mem_filter.mpr ⟨mem_aboutTask.mpr ⟨hplog, hptask.trans htask⟩, decide_eq_true (.inr (.inl hpt))⟩
  cases hlast : lastWrite (s.relevantEvents.filterMap candidateOf) e.entityId with
  | none =>
    rw [lastWrite_eq_none] at hlast
    refine absurd (List.mem_map.mpr ⟨(p.entityId, p.globalPosition), ?_, hpid⟩) hlast
    exact List.mem_filterMap.mpr ⟨p, hpmem, if_pos hpt⟩
  | some position =>
    obtain ⟨p', hp', hcandidate⟩ := List.mem_filterMap.mp (mem_of_lastWrite hlast)
    unfold candidateOf at hcandidate
    split at hcandidate
    · rename_i hpt'
      obtain ⟨hid', rfl⟩ := Prod.mk.inj (Option.some.inj hcandidate)
      obtain ⟨hpmem', -⟩ := relevant_mem hrep hs hp'
      have hty := (lawful_submitted h hplog hpt).2
      have hty' := (lawful_submitted h hpmem' hpt').2
      have hsame : p' = p := h.alone hpmem' hplog (hty'.trans hty.symm) (hid'.trans hpid.symm) (by rw [hty']; decide)
      exact ⟨_, rfl, hsame ▸ position_before h hl hpbefore⟩
    · cases hcandidate

/-- The verdicts of the log are taken up one by one. -/
theorem terminals_taken (h : Lawful svc commands w) (hp : Presents svc commands)
    (hrep : Replayed (openedStates w) w.database.events states) (hs : s ∈ states) (evidence : Option String)
    {front rest : List StoredEvent} (hsplit : s.relevantEvents = front ++ rest) :
    (front.map (milestoneOf evidence)).foldlM (takeTerminal (s.relevantEvents.filterMap candidateOf)) [] =
      .ok (front.filterMap (terminalOf evidence)) := by
  induction front using List.reverseRecOn generalizing rest with
  | nil => rfl
  | append_singleton front e ih =>
    rw [List.append_assoc] at hsplit
    have hmem : e ∈ s.relevantEvents := by simp [hsplit]
    obtain ⟨he, -, hrel⟩ := relevant_mem hrep hs hmem
    rw [List.map_append, List.foldlM_append, ih hsplit, List.filterMap_append]
    have hpass (hv : ¬ IsVerification e) : [e].filterMap (terminalOf evidence) = [] := by
      simp [terminalOf, hv]
    simp only [List.map_cons, List.map_nil, List.foldlM_cons, List.foldlM_nil, bind_pure]
    change takeTerminal _ (front.filterMap (terminalOf evidence)) (milestoneOf evidence e) = _
    -- Only a verdict closes a proof; it is the first of its proof, and its candidate is there.
    cases relevantEvent h he hrel evidence with
    | registered het hm =>
      rw [hpass fun hv => verification_eventType_ne hv (by decide) het, List.append_nil, hm]
      rfl
    | submitted het hid hm =>
      rw [hpass fun hv => verification_eventType_ne hv (by decide) het, List.append_nil, hm, takeTerminal]
      simp [feedbackMilestone]
    | review hr hid hm =>
      rw [hpass fun hv => verification_not_review hv hr, List.append_nil, hm]
      rfl
    | verification hv accepted ha hid hm =>
      have hfresh := verdict_fresh h hp hrep hs evidence hsplit hv
      obtain ⟨position, hposition, hlt⟩ := verdict_candidate h hp hrep hs hmem hv
      have htaken : takeTerminal (s.relevantEvents.filterMap candidateOf) (front.filterMap (terminalOf evidence))
          (milestoneOf evidence e) =
            .ok (front.filterMap (terminalOf evidence) ++ [(e.entityId, milestoneOf evidence e)]) := by
        rw [hm]
        simp only [takeTerminal, feedbackMilestone, hfresh, hposition]
        exact seq_eq_ok.mpr ⟨ensure_eq_ok.mpr hlt, rfl⟩
      rw [htaken]
      simp [terminalOf, hv]

theorem terminalsIn_relevant (h : Lawful svc commands w) (hrep : Replayed (openedStates w) w.database.events states)
    (hs : s ∈ states) (evidence : Option String) (b : Bool) :
    terminalsIn (if b then "accepted" else "rejected") (s.relevantEvents.filterMap (terminalOf evidence)) =
      (s.relevantEvents.filterMap (verdictOn b)).toFinset := by
  ext x
  simp only [terminalsIn, List.mem_toFinset, List.mem_map, List.mem_filter, List.mem_filterMap, decide_eq_true_eq]
  constructor
  · rintro ⟨t, ⟨⟨e, he, hterminal⟩, hstate⟩, rfl⟩
    unfold terminalOf at hterminal
    split at hterminal
    · rename_i hv
      cases hterminal
      obtain ⟨hmem, -, hrel⟩ := relevant_mem hrep hs he
      cases relevantEvent h hmem hrel evidence with
      | verification _ accepted ha hid hm =>
        refine ⟨e, he, ?_⟩
        have hsame : accepted = b := by
          rw [hm] at hstate
          revert hstate
          cases accepted <;> cases b <;> simp [feedbackMilestone]
        rw [verdictOn, if_pos hv, ha]
        exact (if_pos hsame).trans hid
      | registered het _ => exact absurd het (verification_eventType_ne hv (by decide))
      | submitted het _ _ => exact absurd het (verification_eventType_ne hv (by decide))
      | review hr _ _ => exact absurd hr (verification_not_review hv)
    · cases hterminal
  · rintro ⟨e, he, hverdict⟩
    obtain ⟨hv, htext⟩ := verdictOn_eq_some hverdict
    obtain ⟨hmem, -, hrel⟩ := relevant_mem hrep hs he
    obtain ⟨accepted, ha⟩ := lawful_replayable h hmem hv
    obtain ⟨-, hid⟩ := lawful_verification h hmem hv
    have hsame : accepted = b := by
      rw [verdictOn, if_pos hv, ha] at hverdict
      by_contra hne
      simp [hne] at hverdict
    refine ⟨(e.entityId, milestoneOf evidence e), ⟨⟨e, he, if_pos hv⟩, ?_⟩, ?_⟩
    · rw [milestoneOf_verification evidence hv ha, hsame]
      rfl
    · rw [hid, Option.some.injEq] at htext
      exact htext

theorem feedbackItem_ok {order : SetOrder} {nodes : List NodeIdentity} {events : List StoredEvent} {f : PhaseFeedback}
    (h : feedbackItem order events nodes s = .ok f) : ∃ first last head, s.relevantEvents.head? = some first ∧
      s.relevantEvents.getLast? = some last ∧ events.getLast? = some head ∧
      f = ⟨s.taskId, s.builderFidelity, proverVerification s, s.unresolvedReviews,
        mathematicalDependencyLeverage order nodes s.taskId, s.milestones,
        replayOf events s.relevantEvents first last head⟩ := by
  unfold feedbackItem at h
  split at h
  · rename_i first last head hfirst hlast hhead
    cases h
    exact ⟨first, last, head, hfirst, hlast, hhead, rfl⟩
  · cases h

theorem linkage_accepted {order : SetOrder} {nodes : List NodeIdentity} {f : PhaseFeedback}
    (h : Lawful svc commands w) (hp : Presents svc commands)
    (hrep : Replayed (openedStates w) w.database.events states) (hs : s ∈ states)
    (hdistinct : ((byTask nodes s.taskId).map (·.id)).Nodup)
    (hf : feedbackItem order w.database.events nodes s = .ok f) : validateMilestoneLinkage f = .ok () := by
  obtain ⟨first, last, head, hfirst, -, -, rfl⟩ := feedbackItem_ok hf
  obtain ⟨bundle, assurance, hr, -, htask, hfidelity⟩ := Replayed.registration h hp hrep hs
  obtain ⟨hascending, hanchor⟩ := relevant_anchored h hp hrep hs
  have hobserved := hrep.observed s hs
  set evidence := s.builderFidelity.evidenceDigest with hevidence
  have hsequences : s.milestones.map (·.sourceEventSequence) = s.relevantEvents.map (·.globalPosition) := by
    rw [hobserved.milestones, List.map_map]
    exact List.map_congr_left fun e _ => milestoneOf_sequence _ e
  have hhead : s.milestones.head? = some (milestoneOf evidence s.registrationEvent) := by
    rw [hobserved.milestones, List.head?_map, hanchor]
    rfl
  have hbuilder : milestoneOf evidence s.registrationEvent =
      feedbackMilestone "builder_fidelity" "recorded" s.registrationEvent evidence none none := if_pos hr.eventType
  have hcandidates : candidatesOf s.milestones = s.relevantEvents.filterMap candidateOf := by
    rw [candidatesOf, hobserved.milestones, List.filterMap_map]
    exact filterMap_relevant_congr hrep hs fun e he hrel => (candidateOf_eq h he hrel evidence).1
  have hsubmitted : (s.relevantEvents.filterMap candidateOf).map (·.1) = s.submittedProofIds := by
    rw [hobserved.submitted, filterMap_relevant hrep hs fun e he => (kinds_other he).1, List.map_filterMap]
    exact filterMap_relevant_congr hrep hs fun e he hrel => (candidateOf_eq h he hrel evidence).2.symm
  have hverdicts (b : Bool) : (aboutTask s.taskId w.database.events).filterMap (verdictOn b) =
      s.relevantEvents.filterMap (verdictOn b) :=
    filterMap_relevant hrep hs fun e he => (kinds_other he).2.1 b
  have hterminals : s.milestones.foldlM (takeTerminal (s.relevantEvents.filterMap candidateOf)) [] =
      .ok (s.relevantEvents.filterMap (terminalOf evidence)) := by
    rw [hobserved.milestones]
    exact terminals_taken h hp hrep hs evidence (List.append_nil _).symm
  have hreviews : reviewEvidence s.unresolvedReviews = s.relevantEvents.filterMap reviewOf := by
    rw [reviewEvidence, hobserved.reviews, filterMap_relevant hrep hs fun e he => (kinds_other he).2.2,
      List.map_filterMap]
    exact filterMap_relevant_congr hrep hs fun e he hrel => (reviewOf_eq h he hrel evidence).2
  have htold : milestoneReviewEvidence s.milestones = s.relevantEvents.filterMap reviewOf := by
    rw [milestoneReviewEvidence, hobserved.milestones, List.filterMap_map]
    exact filterMap_relevant_congr hrep hs fun e he hrel => (reviewOf_eq h he hrel evidence).1
  have honce : ((reviewEvidence s.unresolvedReviews).map (·.1)).Nodup := by
    rw [reviewEvidence, List.map_map]
    exact hobserved.reviews_once
  unfold validateMilestoneLinkage
  refine seq_eq_ok.mpr ⟨ensure_eq_ok.mpr ?_, seq_eq_ok.mpr ⟨ensure_eq_ok.mpr hsequences, ?_⟩⟩
  · rw [hsequences]
    exact List.Pairwise.insertionSort_eq (hascending.imp fun h => h.le)
  · simp only [hhead]
    refine seq_eq_ok.mpr ⟨ensure_eq_ok.mpr (by rw [hbuilder]; rfl), ?_⟩
    refine seq_eq_ok.mpr ⟨ensure_eq_ok.mpr ?_, ?_⟩
    · rw [hbuilder, hfidelity]
      exact ⟨rfl, rfl⟩
    rw [hcandidates]
    refine seq_eq_ok.mpr ⟨ensure_eq_ok.mpr hsubmitted, ?_⟩
    refine bind_eq_ok.mpr ⟨_, hterminals, ?_⟩
    refine seq_eq_ok.mpr ⟨ensure_eq_ok.mpr ?_, ?_⟩
    · have haccepted := terminalsIn_relevant h hrep hs evidence true
      have hrejected := terminalsIn_relevant h hrep hs evidence false
      rw [← hverdicts, ← hobserved.accepted] at haccepted
      rw [← hverdicts, ← hobserved.rejected] at hrejected
      exact ⟨haccepted, hrejected⟩
    refine seq_eq_ok.mpr ⟨ensure_eq_ok.mpr honce, ?_⟩
    refine seq_eq_ok.mpr ⟨ensure_eq_ok.mpr ?_, leverage_accepted hdistinct⟩
    rw [hreviews, htold]
    exact fun _ _ => rfl

theorem fidelity_read {bundle : FormalizationTaskBundle} {assurance : Option CanonicalTypeAssurance}
    (hstamped : Stamped w.database.events) (hr : RegisteredAs svc commands w.database.events bundle assurance e) :
    readBuilderFidelity (fidelityOf svc bundle assurance e) = .ok () ∧
      ∀ d ∈ (fidelityOf svc bundle assurance e).evidenceDigest, Fits 256 d := by
  obtain ⟨attestation, -, hpayload⟩ := hr.payload
  obtain ⟨hposition, hid, -⟩ := hstamped e hr.mem
  have hevidence : ∀ d ∈ (fidelityOf svc bundle assurance e).evidenceDigest, Fits 256 d := by
    intro d hd
    change artifactDigest e.payload "fidelity_evidence_artifact" = some d at hd
    obtain ⟨artifact, hobj, hdigest⟩ := Option.bind_eq_some_iff.mp hd
    rw [hpayload] at hobj
    cases hfidelity : bundle.fidelityEvidence with
    | none => simp [JsonObject.obj, JsonObject.get, registrationPayload, List.lookup, Service.binding,
        bindingFromBundle, hfidelity, orNull] at hobj
    | some reference =>
      have hartifact : artifact = artifactPayload ⟨reference.digest, reference.size⟩ "builder_fidelity_evidence" := by
        simpa [JsonObject.obj, JsonObject.get, registrationPayload, List.lookup, Service.binding, bindingFromBundle,
          hfidelity, orNull, eq_comm] using hobj
      have htext : (artifactPayload ⟨reference.digest, reference.size⟩ "builder_fidelity_evidence").text "digest" =
          some reference.digest.value := if_neg reference.digest.isSha256.ne_empty
      rw [hartifact, htext, Option.some.injEq] at hdigest
      exact hdigest ▸ fits_digest _ (by decide)
  have hrevision : 1 ≤ bundle.contract.revision.toNat := by
    have hpos := bundle.contract.revision_pos
    omega
  refine ⟨ensure_eq_ok.mpr ⟨?_, fits_identifier bundle.contract.contractId (by decide), hrevision,
    fits_digest (svc.hashing.semanticHash bundle.contract.toContractSemantics) (by decide),
    fits_digest (svc.hashing.handoffHash bundle.toHandoff) (by decide), hposition, hid, hevidence⟩, hevidence⟩
  simp only [fidelityOf]
  split <;> simp

theorem review_read (h : Lawful svc commands w) (hstamped : Stamped w.database.events)
    (he : e ∈ w.database.events) (hr : IsReview e) : readReviewAssumption (unresolvedReviewAssumption e) = .ok () := by
  obtain ⟨hposition, hid, -⟩ := hstamped e he
  have hm := milestoneOf_review none hr
  have hnone : ∀ d ∈ (none : Option String), Fits 256 d := fun d hd => by cases hd
  have hread := readMilestone_relevant h hstamped he (.inr (.inr (.inr hr))) hnone
  rw [hm, readMilestone, seq_eq_ok, ensure_eq_ok] at hread
  obtain ⟨⟨-, -, -, -, hdigest, -, hreview⟩, -⟩ := hread
  refine ensure_eq_ok.mpr ⟨hreview _ rfl, ?_, rfl, hposition, hid, hdigest⟩
  simp only [unresolvedReviewAssumption]
  split <;> simp

theorem submitted_nonempty (h : Lawful svc commands w) (hrep : Replayed (openedStates w) w.database.events states)
    (hs : s ∈ states) : "" ∉ s.submittedProofIds := by
  rw [(hrep.observed s hs).submitted, filterMap_relevant hrep hs fun e he => (kinds_other he).1]
  intro hempty
  obtain ⟨e, he, hproof⟩ := List.mem_filterMap.mp hempty
  unfold Projection.submittedProof at hproof
  split at hproof
  · rename_i het
    obtain ⟨hmem, -⟩ := relevant_mem hrep hs he
    obtain ⟨hproofId, ht⟩ := lawful_submitted h hmem het
    have hfits := fits_entityId h hmem (by rw [ht]; decide)
    rw [← hproofId, Option.some.inj hproof] at hfits
    exact absurd hfits.1 (by decide)
  · cases hproof

theorem reviews_read (h : Lawful svc commands w) (hstamped : Stamped w.database.events)
    (hrep : Replayed (openedStates w) w.database.events states) (hs : s ∈ states) :
    ∀ review ∈ s.unresolvedReviews, readReviewAssumption review = .ok () := by
  intro review hreview
  rw [(hrep.observed s hs).reviews, filterMap_relevant hrep hs fun e he => (kinds_other he).2.2] at hreview
  obtain ⟨e, he, hopened⟩ := List.mem_filterMap.mp hreview
  unfold openedReview at hopened
  split at hopened
  · cases hopened
    exact review_read h hstamped (relevant_mem hrep hs he).1 ‹_›
  · cases hopened

/-- A row of the leverage is read when the label of its node is short enough. -/
theorem leverageRows_read {order : SetOrder} {nodes : List NodeIdentity} {bundle : FormalizationTaskBundle}
    {assurance : Option CanonicalTypeAssurance} (h : Lawful svc commands w)
    (hr : RegisteredAs svc commands w.database.events bundle assurance e)
    (hlabels : ∀ e ∈ w.database.events, ∀ node ∈ declaredBy e, node.label.length ≤ 512 ∧ node.kind.length ≤ 64)
    (htask : byTask nodes s.taskId = mathematicalNodes bundle.toHandoff) :
    ∀ row ∈ (mathematicalDependencyLeverage order nodes s.taskId).rows, readLeverageRow row = .ok () := by
  intro row hrow
  rw [mathematicalDependencyLeverage, htask] at hrow
  obtain ⟨_, hshown, rfl⟩ := List.mem_map.mp ((List.perm_insertionSort _ _).mem_iff.mp hrow)
  obtain ⟨node, hnode, rfl⟩ := List.mem_map.mp hshown
  have hlabel : node.label.length ≤ 512 := by
    obtain ⟨bundle', _, hr', hdeclared⟩ := lawful_declared h hr.mem hr.eventType
    obtain ⟨_, -, hpayload⟩ := hr.payload
    apply (hlabels _ hr.mem node ?_).1
    rw [declaredBy, if_pos hr.eventType, (registeredNodes_registration svc bundle _ _ hpayload).2, publicNodes]
    exact List.mem_append_left _ (List.mem_append_left _ hnode)
  obtain ⟨n, -, rfl⟩ := List.mem_map.mp hnode
  rw [leverageRow, if_neg (ne_empty_of_not_blank n.nodeId.not_blank), if_neg n.label.nonempty]
  exact ensure_eq_ok.mpr ⟨fits_publicId _ _ (by decide), fits_identifier _ (by decide),
    (fits_of_nonempty n.label.nonempty).mpr hlabel⟩

theorem milestones_read (h : Lawful svc commands w) (hstamped : Stamped w.database.events)
    (hrep : Replayed (openedStates w) w.database.events states) (hs : s ∈ states)
    (hevidence : ∀ d ∈ s.builderFidelity.evidenceDigest, Fits 256 d) :
    ∀ m ∈ s.milestones, readMilestone m = .ok () := by
  intro m hm
  rw [(hrep.observed s hs).milestones] at hm
  obtain ⟨e, he, rfl⟩ := List.mem_map.mp hm
  obtain ⟨hmem, -, hrel⟩ := relevant_mem hrep hs he
  exact readMilestone_relevant h hstamped hmem hrel hevidence

/-- The item of a bundle is read when the labels of its nodes are short enough. -/
theorem phaseFeedback_read {order : SetOrder} {nodes : List NodeIdentity} {f : PhaseFeedback}
    (h : Lawful svc commands w) (hp : Presents svc commands) (hstamped : Stamped w.database.events)
    (hrep : Replayed (openedStates w) w.database.events states) (hs : s ∈ states)
    (hnodes : nodes = (w.database.events.flatMap declaredBy).map (·.toNodeIdentity))
    (hlabels : ∀ e ∈ w.database.events, ∀ node ∈ declaredBy e, node.label.length ≤ 512 ∧ node.kind.length ≤ 64)
    (hf : feedbackItem order w.database.events nodes s = .ok f) : readPhaseFeedback f = .ok () := by
  obtain ⟨bundle, assurance, hr, hid, -, hfidelity⟩ := Replayed.registration h hp hrep hs
  obtain ⟨hascending, -⟩ := relevant_anchored h hp hrep hs
  have hobserved := hrep.observed s hs
  have htask : byTask nodes s.taskId = mathematicalNodes bundle.toHandoff := by
    rw [hnodes, hid]
    exact byTask_declared h (.refl _) hr
  have hdistinct : ((byTask nodes s.taskId).map (·.id)).Nodup := by
    rw [htask, mathematicalNodes, List.map_map]
    exact publicNodesOf_nodup bundle.toHandoff (by decide) _
  have hlinkage := linkage_accepted h hp hrep hs hdistinct hf
  obtain ⟨hbuilder, hevidence⟩ := fidelity_read hstamped hr
  rw [← hfidelity] at hbuilder hevidence
  obtain ⟨first, last, head, hfirst, hlast, hhead, rfl⟩ := feedbackItem_ok hf
  have htaskId : Fits 256 s.taskId := hid ▸ fits_identifier bundle.bundleId (by decide)
  have hpartition : validateEvidencePartition (proverVerification s) = .ok () :=
    evidencePartition_accepted hobserved.submitted_once (submitted_nonempty h hrep hs) (pending_perm hobserved)
  have hmode : (mathematicalDependencyLeverage order nodes s.taskId).mode ∈ ["exact_transitive", "direct_only_over_limit"] := by
    simp only [mathematicalDependencyLeverage]
    split <;> simp
  have hreplay := replay_accepted h.coherent.positions hstamped hascending (fun e he => (relevant_mem hrep hs he).1) hfirst
    hlast hhead
  refine seq_eq_ok.mpr ⟨ensure_eq_ok.mpr htaskId, seq_eq_ok.mpr ⟨hbuilder, seq_eq_ok.mpr ⟨hpartition, ?_⟩⟩⟩
  refine seq_eq_ok.mpr ⟨forM_eq_ok.mpr (reviews_read h hstamped hrep hs), seq_eq_ok.mpr ⟨ensure_eq_ok.mpr hmode, ?_⟩⟩
  refine seq_eq_ok.mpr ⟨forM_eq_ok.mpr (leverageRows_read h hr hlabels htask), ?_⟩
  refine seq_eq_ok.mpr ⟨forM_eq_ok.mpr (milestones_read h hstamped hrep hs hevidence), ?_⟩
  exact seq_eq_ok.mpr ⟨hreplay, hlinkage⟩

end Item

/-! The document of a reachable log -/

/-- A document of a lawful log is read exactly when the texts of the log are within their bounds. -/
theorem lawful_document_read {order : SetOrder} {isDatetime : String → Bool} {d : Document} (h : Lawful svc commands w)
    (hp : Presents svc commands) (hstamped : Stamped w.database.events)
    (hd : document order w.database.events = .ok d) :
    readSnapshot isDatetime d = .ok () ↔ WithinBounds w.database.events := by
  obtain ⟨⟨snap, feedback⟩, hdashboard, hd⟩ := bind_eq_ok.mp hd
  obtain ⟨v, hviews, hd⟩ := bind_eq_ok.mp hd
  cases hd
  rw [inOrder_events h] at hviews
  have htold : Told w.database.events v := by simpa using told_empty.run hviews
  obtain ⟨snap', hsnap, hd⟩ := bind_eq_ok.mp hdashboard
  obtain ⟨feedback', hfeedback, hd⟩ := bind_eq_ok.mp hd
  cases hd
  have hnodes := lawful_nodes_read h hsnap isDatetime
  have hruns := lawful_runs_read h htold
  constructor
  · intro hread
    obtain ⟨hread, hrest⟩ := seq_eq_ok.mp hread
    obtain ⟨hread', -⟩ := seq_eq_ok.mp hrest
    exact ⟨hnodes.mp (forM_eq_ok.mp hread), hruns.mp (forM_eq_ok.mp hread')⟩
  · intro hbounds
    obtain ⟨_, hsnap', -, hids⟩ := lawful_snapshot_agrees h
    rw [hsnap, Except.ok.injEq] at hsnap'
    subst hsnap'
    rw [inOrder_events h] at hfeedback
    obtain ⟨states, hstates, hitems⟩ := bind_eq_ok.mp hfeedback
    rw [lawful_feedbackStates h hp] at hstates
    have hrep : Replayed (openedStates w) w.database.events states := by simpa using (opened_replayed h hp).run hstates
    refine seq_eq_ok.mpr ⟨forM_eq_ok.mpr (hnodes.mpr hbounds.nodes), ?_⟩
    refine seq_eq_ok.mpr ⟨forM_eq_ok.mpr (hruns.mpr hbounds.runs), ?_⟩
    refine seq_eq_ok.mpr ⟨forM_eq_ok.mpr ?_, seq_eq_ok.mpr ⟨forM_eq_ok.mpr ?_, forM_eq_ok.mpr ?_⟩⟩
    · intro a ha
      obtain ⟨e, he, het, hcaptured⟩ := htold.artifacts a ha
      exact lawful_artifact_read h he het hcaptured
    · intro event hevent
      have hevent : event ∈ v.events := hevent
      rw [htold.events] at hevent
      obtain ⟨e, he, rfl⟩ := List.mem_map.mp hevent
      exact lawful_event_read h hstamped he
    · intro f hf
      obtain ⟨s, hs, hitem⟩ := (mapM_ok hitems).2 f hf
      exact phaseFeedback_read h hp hstamped hrep ((List.perm_insertionSort _ _).mem_iff.mp hs) hids hbounds.nodes hitem

/-- The document of a lawful log is exported whenever its replay returns. -/
theorem lawful_document_iff (order : SetOrder) (h : Lawful svc commands w) (hp : Presents svc commands)
    (hstamped : Stamped w.database.events) : (∃ d, document order w.database.events = .ok d) ↔
      ∀ e ∈ w.database.events, ∀ e' ∈ w.database.events, ¬ ReviewsCollide e e' := by
  have hdashboard : (∃ shown, dashboard order w.database.events = .ok shown) ↔
      ∃ states, feedbackStates w.database.events = .ok states := lawful_dashboard_iff h hp
  rw [← lawful_replay_iff h hp, ← hdashboard]
  constructor
  · rintro ⟨d, hd⟩
    obtain ⟨shown, hshown, -⟩ := bind_eq_ok.mp hd
    exact ⟨shown, hshown⟩
  · rintro ⟨⟨snap, feedback⟩, hshown⟩
    obtain ⟨v, hviews⟩ := lawful_views h hstamped (List.Subset.refl _) .empty
    refine ⟨_, bind_eq_ok.mpr ⟨_, hshown, bind_eq_ok.mpr ⟨v, ?_, rfl⟩⟩⟩
    rw [inOrder_events h]
    exact hviews

/-- Over every interleaving of the commands, crashes included, the log can be shown on the
Dashboard exactly when no gap report and contract change request of one bundle share an
identifier and the labels and kinds of its nodes and the names of its models are short enough. -/
theorem displayable_iff [DecidableEq θ] (svc : Service) (commands : θ → Command) (labels : List (θ × ServiceInput))
    (order : SetOrder) (isDatetime : String → Bool) (hp : Presents svc commands) (hdraws : DrawsShort labels) :
    let events := (commandRun svc commands labels).state.database.events
    (∃ d, document order events = .ok d ∧ readSnapshot isDatetime d = .ok ()) ↔
      (∀ e ∈ events, ∀ e' ∈ events, ¬ ReviewsCollide e e') ∧ WithinBounds events := by
  have hw := (run_sound_any svc commands labels).inv
  have hstamped := run_stamped svc commands hdraws
  intro events
  have hreturns : (∃ d, document order events = .ok d) ↔
      ∀ e ∈ events, ∀ e' ∈ events, ¬ ReviewsCollide e e' := lawful_document_iff order hw hp hstamped
  constructor
  · rintro ⟨d, hd, hread⟩
    exact ⟨hreturns.mp ⟨d, hd⟩, (lawful_document_read hw hp hstamped hd).mp hread⟩
  · rintro ⟨hapart, hbounds⟩
    obtain ⟨d, hd⟩ := hreturns.mpr hapart
    exact ⟨d, hd, (lawful_document_read hw hp hstamped hd).mpr hbounds⟩

/-- Every step draws the same identifier from its second draw on. -/
def drawingTwo (labels : List (θ × ServiceInput)) : List (θ × ServiceInput) := labels.map fun l =>
  (l.1, { l.2 with readings := { l.2.readings with uuid := fun n => l.2.readings.uuid (min n 1) } })

theorem drawingTwo_short {labels : List (θ × ServiceInput)}
    (h : ∀ l ∈ labels, ∀ n ≤ 1, (l.2.readings.uuid n).text.length ≤ 256) : DrawsShort (drawingTwo labels) := by
  intro l hl n
  obtain ⟨l', hl', rfl⟩ := List.mem_map.mp hl
  exact h l' hl' _ (min_le_right n 1)

theorem displayable_iff_reviewing :
    let log labels := (commandRun sampleService reviewingCommands (drawingTwo labels)).state.database.events
    let Displayed labels := ∃ d, document .ascending (log labels) = .ok d ∧ readSnapshot (fun _ => false) d = .ok ()
    Displayed reportingRun ∧ ¬ Displayed reviewingRun := by
  intro log Displayed
  have hexact labels (hshort : DrawsShort (drawingTwo labels)) := displayable_iff sampleService reviewingCommands
    (drawingTwo labels) .ascending (fun _ => false) presents_reviewing hshort
  constructor
  · refine (hexact reportingRun (drawingTwo_short (by decide +kernel))).mpr ⟨by decide +kernel, ?_⟩
    exact ⟨by decide +kernel, by decide +kernel⟩
  · intro hshown
    have hapart := ((hexact reviewingRun (drawingTwo_short (by decide +kernel))).mp hshown).1
    have hcollide : ∃ e ∈ log reviewingRun, ∃ e' ∈ log reviewingRun, ReviewsCollide e e' := by decide +kernel
    obtain ⟨e, he, e', he', h⟩ := hcollide
    exact hapart e he e' he' h

end Autolean.Dashboard
