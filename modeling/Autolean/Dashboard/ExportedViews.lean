import Autolean.Dashboard.SnapshotReader

/-! The nodes, the runs, the artifacts and the events that a reachable log exports, against the
bounds of the reader. -/
namespace Autolean.Dashboard
open ControlPlane ControlPlane.Projection Contracts Machine Raising

variable {θ : Type} {svc : Service} {commands : θ → Command} {w : World} {e : StoredEvent}

/-! Texts within their bounds -/

theorem fits_identifier (i : StableIdentifier) {max : Nat} (h : 181 ≤ max) : Fits max i.value := by
  obtain ⟨hstart, hlong, hshort, -⟩ := i.shaped
  have htake := congrArg List.length hstart
  rw [List.length_take, show ("urn:autolean:v1:".toList).length = 16 from rfl] at htake
  rw [List.length_drop] at hlong hshort
  unfold Fits
  rw [← String.length_toList]
  omega

theorem fits_digest (d : Digest) {max : Nat} (h : 64 ≤ max) : Fits max d.value := by
  have hlength := d.isSha256.length
  unfold Fits
  rw [← String.length_toList]
  omega

theorem fits_of_nonempty {max : Nat} {text : String} (hne : text ≠ "") : Fits max text ↔ text.length ≤ max := by
  unfold Fits
  rw [and_iff_right]
  by_contra hzero
  have hnil : text.toList = [] := by
    rw [← List.length_eq_zero_iff, String.length_toList]
    omega
  exact hne (String.toList_inj.mp hnil)

theorem publicId_length (b g i : String) : (publicId b g i).length = b.length + g.length + i.length + 17 := by
  have hprefix : ("dashboard-node|".toList).length = 15 := by decide
  have hparts := congrArg List.length (publicId_toList b g i)
  rw [String.length_toList] at hparts
  rw [hparts]
  simp only [List.length_append, List.length_cons, String.length_toList, hprefix]
  omega

theorem fits_publicId (b i : StableIdentifier) {g : String} (hg : g ∈ graphNames) :
    Fits 768 (publicId b.value g i.value) := by
  have hb := fits_identifier b (le_refl 181)
  have hi := fits_identifier i (le_refl 181)
  have hlength : g.length ≤ 12 := by
    revert g
    decide
  unfold Fits at *
  rw [publicId_length]
  omega

theorem text_nonempty {payload : JsonObject} {key text : String} (h : payload.text key = some text) : text ≠ "" := by
  unfold JsonObject.text at h
  split at h
  · split at h
    · cases h
    · cases h
      assumption
  · cases h

/-! Positions, identifiers and payloads -/

/-- The positions of a log are positive, the identifiers of its events within their bound, and
its payloads have a text. -/
def Stamped (events : List StoredEvent) : Prop :=
  ∀ e ∈ events, 1 ≤ e.globalPosition ∧ Fits 256 e.eventId ∧ Json.encodableFields e.payload = true

/-- The identifiers that are drawn in a run are within their bound. -/
def DrawsShort (labels : List (θ × ServiceInput)) : Prop :=
  ∀ l ∈ labels, ∀ n, (l.2.readings.uuid n).text.length ≤ 256

theorem nextPosition_pos (db : Database) : 1 ≤ db.nextPosition := by
  unfold Database.nextPosition
  split <;> omega

theorem written_stamped {db : Database} {r : Readings} {call : AppendCall} (h : Stamped db.events)
    (hw : call.batch.Writable db r) (hr : ∀ n, (r.uuid n).text.length ≤ 256) : Stamped (call.written db r).events := by
  have hevents : (call.written db r).events = db.events ++ call.batch.stored db r := by
    cases call <;> rfl
  intro e he
  rw [hevents] at he
  rcases List.mem_append.mp he with he | he
  · exact h e he
  · obtain ⟨-, -, hposition, -, ⟨n, hn⟩, event, hevent, -, hpayload, -⟩ := mem_stampEvents he
    rw [hn, fits_of_nonempty (r.uuid n).text_ne_empty, hpayload]
    exact ⟨(nextPosition_pos db).trans hposition, hr n, (hw.encodable event hevent).1⟩

theorem run_stamped [DecidableEq θ] (svc : Service) (commands : θ → Command) {labels : List (θ × ServiceInput)}
    (hdraws : DrawsShort labels) : Stamped (commandRun svc commands labels).state.database.events := by
  induction labels using List.reverseRecOn with
  | nil => exact fun e he => absurd he List.not_mem_nil
  | append_singleton labels l ih =>
    have hbefore := ih fun l' hl' => hdraws l' (List.mem_append_left _ hl')
    unfold commandRun at *
    rw [run_append]
    obtain hsame | ⟨call, _, _, -, happends⟩ := pool_step_appends (run_sound_any svc commands labels) l
    · exact hsame ▸ hbefore
    · change Stamped (CommandPool.step svc _ l).state.database.events
      rw [happends.database]
      exact written_stamped hbefore happends.writable (hdraws l (List.mem_append_right _ List.mem_cons_self))

/-! What the log must keep within -/

/-- The texts of a log that its contracts do not bound are short enough. -/
structure WithinBounds (events : List StoredEvent) : Prop where
  nodes : ∀ e ∈ events, ∀ node ∈ declaredBy e, node.label.length ≤ 512 ∧ node.kind.length ≤ 64
  runs : ∀ e ∈ events, e.eventType = "proof.submitted" → ((e.payload.text "provider").getD "unattributed").length ≤ 128 ∧
    ((e.payload.text "model").getD "unattributed").length ≤ 256

/-! Nodes -/

theorem fits_status (effect : Option Effect) : Fits 64 (effect.elim "frozen" Effect.status) := by
  cases effect with
  | none => decide
  | some effect => cases effect <;> decide

/-- What the reader takes a node that a registration declares for. -/
theorem readGraphNode_declared (h : Lawful svc commands w) (he : e ∈ w.database.events) {declared node : PublicNode}
    (hmem : declared ∈ declaredBy e) (hsame : node.toNodeIdentity = declared.toNodeIdentity)
    (hstatus : Fits 64 node.status) (isDatetime : String → Bool) :
    readGraphNode isDatetime node = .ok () ↔ declared.label.length ≤ 512 ∧ declared.kind.length ≤ 64 := by
  obtain ⟨bundle, assurance, -, hdeclared⟩ := lawful_declared h he (mem_declaredBy hmem)
  rw [hdeclared] at hmem
  have hnode : ∃ graph : Graph, ∃ g ∈ graphNames, ∃ n ∈ graph.nodes, declared =
      ⟨⟨bundle.bundleId.value, (graphDependencies graph n).map (publicId bundle.bundleId.value g), g,
        publicId bundle.bundleId.value g n.nodeId.value, n.kind.value, n.label.value,
        bundle.contract.revision.toNat, n.nodeId.value, bundle.bundleId.value, none⟩, "frozen"⟩ := by
    simp only [publicNodes, publicNodesOf, List.mem_append, List.mem_map] at hmem
    rcases hmem with (⟨n, hn, rfl⟩ | ⟨n, hn, rfl⟩) | ⟨n, hn, rfl⟩
    · exact ⟨_, "mathematical", by decide, n, hn, rfl⟩
    · exact ⟨_, "formal", by decide, n, hn, rfl⟩
    · exact ⟨_, "execution", by decide, n, hn, rfl⟩
  obtain ⟨graph, g, hg, n, -, rfl⟩ := hnode
  have hrevision : 1 ≤ bundle.contract.revision.toNat := by
    have hpos := bundle.contract.revision_pos
    omega
  rw [readGraphNode, ensure_eq_ok, hsame]
  constructor
  · rintro ⟨-, -, -, hlabel, -, -, -, hkind, -⟩
    exact ⟨hlabel.2, hkind.2⟩
  · rintro ⟨hlabel, hkind⟩
    exact ⟨fits_publicId _ _ hg, fits_identifier _ (by decide), fits_identifier _ (by decide),
      (fits_of_nonempty n.label.nonempty).mpr hlabel, hg, hstatus, hrevision,
      (fits_of_nonempty n.kind.nonempty).mpr hkind, fun _ ht => by cases ht⟩

theorem lawful_nodes_read (h : Lawful svc commands w) {s : Snapshot} (hs : snapshot w.database.events = .ok s)
    (isDatetime : String → Bool) : (∀ node ∈ s.nodes, readGraphNode isDatetime node = .ok ()) ↔
      ∀ e ∈ w.database.events, ∀ node ∈ declaredBy e, node.label.length ≤ 512 ∧ node.kind.length ≤ 64 := by
  obtain ⟨s', hs', hagrees, hids⟩ := lawful_snapshot_agrees h
  rw [hs, Except.ok.injEq] at hs'
  subst hs'
  have hstatus {node : PublicNode} (hnode : node ∈ s.nodes) : Fits 64 node.status := by
    rw [hagrees.nodes node hnode]
    exact fits_status _
  constructor
  · intro hread e he declared hdeclared
    have hshown : declared.toNodeIdentity ∈ s.nodes.map (·.toNodeIdentity) := by
      rw [hids]
      exact List.mem_map_of_mem (List.mem_flatMap.mpr ⟨e, he, hdeclared⟩)
    obtain ⟨node, hnode, hsame⟩ := List.mem_map.mp hshown
    exact (readGraphNode_declared h he hdeclared hsame (hstatus hnode) isDatetime).mp (hread node hnode)
  · intro hbounds node hnode
    have hdeclared : node.toNodeIdentity ∈ (w.database.events.flatMap declaredBy).map (·.toNodeIdentity) := by
      rw [← hids]
      exact List.mem_map_of_mem hnode
    obtain ⟨declared, hmem, hsame⟩ := List.mem_map.mp hdeclared
    obtain ⟨e, he, hmem⟩ := List.mem_flatMap.mp hmem
    exact (readGraphNode_declared h he hmem hsame.symm (hstatus hnode) isDatetime).mpr (hbounds e he declared hmem)

/-! The other views of a replayed log -/

section Entries
variable {α : Type} {key : α → String} {entries : List α} {entry x : α}

theorem mem_putEntry (h : x ∈ putEntry key entries entry) : x = entry ∨ x ∈ entries := by
  unfold putEntry at h
  split at h
  · obtain ⟨old, hold, rfl⟩ := List.mem_map.mp h
    split
    · exact .inl rfl
    · exact .inr hold
  · rcases List.mem_append.mp h with h | h
    · exact .inr h
    · exact .inl (List.mem_singleton.mp h)

theorem keys_putEntry (k : String) :
    k ∈ (putEntry key entries entry).map key ↔ k = key entry ∨ k ∈ entries.map key := by
  unfold putEntry
  split
  · rename_i hheld
    have hkeys : (entries.map fun old => if key old = key entry then entry else old).map key = entries.map key := by
      rw [List.map_map]
      apply List.map_congr_left
      intro old _
      by_cases hsame : key old = key entry
      · rw [Function.comp, if_pos hsame, hsame]
      · rw [Function.comp, if_neg hsame]
    rw [hkeys]
    exact ⟨.inr, fun h => h.elim (fun h => h ▸ hheld) id⟩
  · rw [List.map_append, List.mem_append, List.map_singleton, List.mem_singleton]
    exact or_comm

end Entries

/-- The entry of its payload that an event's artifact is taken from. -/
def artifactKey (e : StoredEvent) : String :=
  if e.eventType = "task.registered" then "bundle_artifact"
  else if e.eventType = "proof.submitted" then "proof_artifact"
  else if e.eventType = "gap.reported" then "gap_artifact"
  else if e.eventType = "contract_change.requested" then "request_artifact"
  else "verification_artifact"

/-- The run is the one that the submission started, judged or not. -/
structure RunOf (e : StoredEvent) (run : RunView) : Prop where
  submitted : e.eventType = "proof.submitted"
  started : ∃ first, runFromSubmission e.payload (proofIdOf e) = .ok first ∧
    run = { first with status := run.status, verification := run.verification }
  judged : (run.status, run.verification) ∈ [("candidate", "pending"), ("succeeded", "accepted"), ("failed", "rejected")]

/-- The views hold what the past events say. -/
structure Told (past : List StoredEvent) (v : Views) : Prop where
  events : v.events = past.map eventView
  artifacts : ∀ a ∈ v.artifacts, ∃ e ∈ past, e.eventType ≠ "task.claimed" ∧
    capturedArtifact e.payload (artifactKey e) = some a
  runs : ∀ run ∈ v.runs, ∃ e ∈ past, RunOf e run
  submitted : ∀ e ∈ past, e.eventType = "proof.submitted" → proofIdOf e ∈ v.runs.map (·.id)

theorem verification_eventType_ne {t : String} (hv : IsVerification e)
    (ht : ¬ "verification.".toList.isPrefixOf t.toList) : e.eventType ≠ t := by
  intro het
  unfold IsVerification at hv
  rw [het] at hv
  exact ht hv

/-- What an event does to the views: a new run or a verdict first, and then its artifact. -/
theorem take_cases {v v' : Views} (h : v.take e = .ok v') : ∃ mid, (v' = mid ∨
      e.eventType ≠ "task.claimed" ∧ v' = mid.capture e.payload (artifactKey e)) ∧
    ((e.eventType = "proof.submitted" ∧ ∃ run, runFromSubmission e.payload (proofIdOf e) = .ok run ∧
        mid = { v with runs := putEntry (·.id) v.runs run }) ∨
      (e.eventType ≠ "proof.submitted" ∧ (mid = v ∨ ∃ proofId accepted, mid = v.judge proofId accepted))) := by
  unfold Views.take at h
  split_ifs at h with hregistered hsubmitted hgap hchange hverdict
  · cases h
    exact ⟨v, .inr ⟨by rw [hregistered]; decide, by rw [artifactKey, if_pos hregistered]⟩,
      .inr ⟨by rw [hregistered]; decide, .inl rfl⟩⟩
  · obtain ⟨run, hrun, h⟩ := bind_eq_ok.mp h
    cases h
    exact ⟨_, .inr ⟨by rw [hsubmitted]; decide, by rw [artifactKey, if_neg hregistered, if_pos hsubmitted]⟩,
      .inl ⟨hsubmitted, run, hrun, rfl⟩⟩
  · cases h
    exact ⟨v, .inr ⟨by rw [hgap.1]; decide, by rw [artifactKey, if_neg hregistered, if_neg hsubmitted, if_pos hgap.1]⟩,
      .inr ⟨hsubmitted, .inl rfl⟩⟩
  · cases h
    have hgap' : e.eventType ≠ "gap.reported" := by
      rw [hchange.1]
      decide
    refine ⟨v, .inr ⟨by rw [hchange.1]; decide, ?_⟩, .inr ⟨hsubmitted, .inl rfl⟩⟩
    rw [artifactKey, if_neg hregistered, if_neg hsubmitted, if_neg hgap', if_pos hchange.1]
  · obtain ⟨accepted, -, h⟩ := bind_eq_ok.mp h
    cases h
    have hother {t : String} := @verification_eventType_ne e t hverdict
    refine ⟨v.judge (e.payload.text "proof_id") accepted, .inr ⟨hother (by decide), ?_⟩,
      .inr ⟨hsubmitted, .inr ⟨_, accepted, rfl⟩⟩⟩
    rw [artifactKey, if_neg hregistered, if_neg hsubmitted, if_neg (hother (by decide)), if_neg (hother (by decide))]
  · cases h
    exact ⟨v, .inl rfl, .inr ⟨hsubmitted, .inl rfl⟩⟩

theorem RunOf.judge {run : RunView} (h : RunOf e run) (accepted : Bool) :
    RunOf e { run with status := if accepted then "succeeded" else "failed"
                       verification := if accepted then "accepted" else "rejected" } where
  submitted := h.submitted
  started := by
    obtain ⟨first, hfirst, hrun⟩ := h.started
    exact ⟨first, hfirst, by rw [hrun]⟩
  judged := by cases accepted <;> simp

theorem RunOf.first {run : RunView} (het : e.eventType = "proof.submitted")
    (h : runFromSubmission e.payload (proofIdOf e) = .ok run) : RunOf e run where
  submitted := het
  started := ⟨run, h, rfl⟩
  judged := by
    obtain ⟨-, h⟩ := ensure_bind_eq_ok.mp h
    cases h
    simp

theorem runFromSubmission_id {payload : JsonObject} {proofId : String} {run : RunView}
    (h : runFromSubmission payload proofId = .ok run) : run.id = proofId := by
  obtain ⟨-, h⟩ := ensure_bind_eq_ok.mp h
  cases h
  rfl

theorem RunOf.id_eq {run : RunView} (h : RunOf e run) : run.id = proofIdOf e := by
  obtain ⟨first, hfirst, hrun⟩ := h.started
  rw [hrun]
  exact (runFromSubmission_id hfirst :)

/-- A verdict changes the state of a run, not the submission that it stands for. -/
theorem Told.judge {past : List StoredEvent} {v : Views} (h : Told past v) (proofId : Option String) (accepted : Bool) :
    Told past (v.judge proofId accepted) where
  events := h.events
  artifacts := h.artifacts
  runs := by
    intro run hrun
    obtain ⟨old, hold, rfl⟩ := List.mem_map.mp hrun
    obtain ⟨e, he, hof⟩ := h.runs old hold
    split
    · exact ⟨e, he, hof.judge accepted⟩
    · exact ⟨e, he, hof⟩
  submitted := by
    have hids : (v.judge proofId accepted).runs.map (·.id) = v.runs.map (·.id) := by
      rw [Views.judge, List.map_map]
      apply List.map_congr_left
      intro run _
      rw [Function.comp]
      split <;> rfl
    rw [hids]
    exact h.submitted

theorem mem_capture {v : Views} {payload : JsonObject} {key : String} {a : ArtifactView}
    (ha : a ∈ (v.capture payload key).artifacts) : capturedArtifact payload key = some a ∨ a ∈ v.artifacts := by
  rw [Views.capture] at ha
  cases hcaptured : capturedArtifact payload key with
  | none =>
    rw [hcaptured] at ha
    exact .inr ha
  | some captured =>
    rw [hcaptured] at ha
    rcases mem_putEntry ha with rfl | hold
    · exact .inl rfl
    · exact .inr hold

/-- One event keeps what the views hold. -/
theorem Told.step {past : List StoredEvent} {v v' : Views} (h : Told past v) (hstep : v.step e = .ok v') :
    Told (past ++ [e]) v' := by
  obtain ⟨taken, htaken, hstep⟩ := bind_eq_ok.mp hstep
  cases hstep
  obtain ⟨mid, hcapture, hmid⟩ := take_cases htaken
  have hkept : mid.artifacts = v.artifacts ∧ mid.events = v.events := by
    rcases hmid with ⟨-, run, -, rfl⟩ | ⟨-, rfl | ⟨proofId, accepted, rfl⟩⟩
    all_goals exact ⟨rfl, rfl⟩
  have hrest : taken.runs = mid.runs ∧ taken.events = mid.events := by
    rcases hcapture with rfl | ⟨-, rfl⟩
    all_goals exact ⟨rfl, rfl⟩
  have hruns : (∀ run ∈ mid.runs, ∃ e' ∈ past ++ [e], RunOf e' run) ∧
      ∀ e' ∈ past ++ [e], e'.eventType = "proof.submitted" → proofIdOf e' ∈ mid.runs.map (·.id) := by
    rcases hmid with ⟨het, run, hrun, rfl⟩ | ⟨het, hsame⟩
    · refine ⟨fun run' hrun' => ?_, fun e' he' het' => ?_⟩
      · rcases mem_putEntry hrun' with rfl | hold
        · exact ⟨e, by simp, .first het hrun⟩
        · obtain ⟨e', he', hof⟩ := h.runs run' hold
          exact ⟨e', List.mem_append_left _ he', hof⟩
      · rw [keys_putEntry]
        rcases List.mem_append.mp he' with he' | he'
        · exact .inr (h.submitted e' he' het')
        · rw [List.mem_singleton.mp he']
          exact .inl (runFromSubmission_id hrun).symm
    · have htold : Told past mid := by
        rcases hsame with rfl | ⟨proofId, accepted, rfl⟩
        · exact h
        · exact h.judge proofId accepted
      refine ⟨fun run hrun => ?_, fun e' he' het' => ?_⟩
      · obtain ⟨e', he', hof⟩ := htold.runs run hrun
        exact ⟨e', List.mem_append_left _ he', hof⟩
      · rcases List.mem_append.mp he' with he' | he'
        · exact htold.submitted e' he' het'
        · rw [List.mem_singleton.mp he'] at het'
          exact absurd het' het
  constructor
  · rw [hrest.2, hkept.2, h.events, List.map_append, List.map_singleton]
  · intro a ha
    have hold (ha : a ∈ mid.artifacts) : ∃ e' ∈ past ++ [e], e'.eventType ≠ "task.claimed" ∧
        capturedArtifact e'.payload (artifactKey e') = some a := by
      obtain ⟨e', he', hcaptured⟩ := h.artifacts a (hkept.1 ▸ ha)
      exact ⟨e', List.mem_append_left _ he', hcaptured⟩
    rcases hcapture with rfl | ⟨het, rfl⟩
    · exact hold ha
    · rcases mem_capture ha with hcaptured | ha
      · exact ⟨e, by simp, het, hcaptured⟩
      · exact hold ha
  · rw [hrest.1]
    exact hruns.1
  · rw [hrest.1]
    exact hruns.2

/-- What a replay of the views holds. -/
theorem Told.run {past events : List StoredEvent} {v v' : Views} (h : Told past v)
    (hrun : events.foldlM Views.step v = .ok v') : Told (past ++ events) v' := by
  induction events generalizing past v with
  | nil =>
    cases hrun
    rwa [List.append_nil]
  | cons e rest ih =>
    rw [List.foldlM_cons] at hrun
    obtain ⟨next, hstep, hrun⟩ := bind_eq_ok.mp hrun
    rw [List.append_cons]
    exact ih (h.step hstep) hrun

theorem told_empty : Told [] .empty := by
  constructor <;> simp [Views.empty]

/-! The views of a lawful log -/

theorem encodable_get {payload : JsonObject} (h : Json.encodableFields payload = true) {key : String} {v : Json}
    (hget : payload.get key = some v) : v.encodable = true := by
  unfold JsonObject.get at hget
  induction payload with
  | nil => cases hget
  | cons field rest ih =>
    obtain ⟨k, x⟩ := field
    rw [Json.encodableFields, Bool.and_eq_true] at h
    rw [List.lookup_cons] at hget
    split at hget
    · cases hget
      exact h.1
    · exact ih h.2 hget

theorem runFromSubmission_returns {payload : JsonObject} (h : Json.encodableFields payload = true) (proofId : String) :
    ∃ run, runFromSubmission payload proofId = .ok run := by
  refine ⟨_, ensure_bind_eq_ok.mpr ⟨?_, rfl⟩⟩
  unfold optionalFloat
  split
  · split <;> rfl
  · split <;> rfl
  · rename_i hget
    exact absurd (encodable_get h hget) (by decide)
  · rename_i hget
    exact absurd (encodable_get h hget) (by decide)
  · rfl

/-- The views of a lawful log are replayed to its end. -/
theorem lawful_views (h : Lawful svc commands w) (hs : Stamped w.database.events) {events : List StoredEvent}
    (hsub : events ⊆ w.database.events) (v : Views) : ∃ v', events.foldlM Views.step v = .ok v' := by
  induction events generalizing v with
  | nil => exact ⟨v, rfl⟩
  | cons e rest ih =>
    have he : e ∈ w.database.events := hsub List.mem_cons_self
    have htake : ∃ taken, v.take e = .ok taken := by
      unfold Views.take
      split_ifs with hregistered hsubmitted hgap hchange hverdict
      · exact ⟨_, rfl⟩
      · obtain ⟨run, hrun⟩ := runFromSubmission_returns (hs e he).2.2 (proofIdOf e)
        exact ⟨_, bind_eq_ok.mpr ⟨run, hrun, rfl⟩⟩
      · exact ⟨_, rfl⟩
      · exact ⟨_, rfl⟩
      · obtain ⟨accepted, haccepted⟩ := lawful_replayable h he hverdict
        exact ⟨_, bind_eq_ok.mpr ⟨accepted, haccepted, rfl⟩⟩
      · exact ⟨_, rfl⟩
    obtain ⟨taken, htaken⟩ := htake
    obtain ⟨v', hrun⟩ := ih (List.cons_subset.mp hsub).2 { taken with events := taken.events ++ [eventView e] }
    refine ⟨v', ?_⟩
    rw [List.foldlM_cons, Views.step, htaken]
    exact hrun

/-- Every event is about a bundle, under its durable identifier. -/
theorem lawful_taskId (h : Lawful svc commands w) (he : e ∈ w.database.events) :
    ∃ i : StableIdentifier, eventTaskId e = some i.value := by
  obtain ⟨before, after, hl⟩ := List.append_of_mem he
  rcases lawful_about h hl with het | ⟨bundleId, binding, hreg, htask⟩
  · obtain ⟨bundle, _, hr, -⟩ := lawful_declared h he het
    obtain ⟨_, -, hpayload⟩ := hr.payload
    exact ⟨bundle.bundleId, (registeredNodes_registration svc bundle _ _ hpayload).1⟩
  · obtain ⟨_, bundle, _, -, hid, -⟩ := h.registered (subset_before hl) hreg
    exact ⟨bundle.bundleId, htask.trans (congrArg some hid)⟩

theorem lawful_event_read (h : Lawful svc commands w) (hs : Stamped w.database.events) (he : e ∈ w.database.events) :
    readEventView (eventView e) = .ok () := by
  obtain ⟨i, htask⟩ := lawful_taskId h he
  have htype : Fits 128 e.eventType := by
    have hkind : e.eventType ∈ eventKinds.map Prod.snd := List.mem_map_of_mem (h.kind he)
    revert hkind
    generalize e.eventType = t
    revert t
    decide
  have hsummary : (eventView e).summary.length = e.eventType.length := by
    rw [eventView, String.length_ofList, List.length_map, String.length_toList]
  rw [readEventView, ensure_eq_ok]
  refine ⟨(hs e he).1, htype, ?_, fun id hid => ?_, ?_⟩
  · rw [eventView, htask]
    exact fits_identifier i (by decide)
  · rw [show (eventView e).taskId = some i.value from htask, Option.mem_some_iff] at hid
    exact hid ▸ fits_identifier i (by decide)
  · unfold Fits at *
    omega

theorem lawful_artifact_read (h : Lawful svc commands w) (he : e ∈ w.database.events)
    (het : e.eventType ≠ "task.claimed") {a : ArtifactView} (ha : capturedArtifact e.payload (artifactKey e) = some a) :
    readArtifactSummary a = .ok () := by
  obtain ⟨before, after, hl⟩ := List.append_of_mem he
  have read (kind : String) {reference : ArtifactRef} (hkind : Fits 64 kind)
      (hobj : e.payload.obj (artifactKey e) = some (artifactPayload reference kind)) :
      readArtifactSummary a = .ok () := by
    have hdigest : (artifactPayload reference kind).text "digest" = some reference.digest.value :=
      if_neg reference.digest.isSha256.ne_empty
    have hkindText : (artifactPayload reference kind).text "kind" = some kind := by
      apply if_neg
      rintro rfl
      exact absurd hkind.1 (by decide)
    rw [capturedArtifact, hobj, Option.bind_eq_bind, Option.bind_some, hdigest, Option.bind_eq_bind, Option.bind_some,
      hkindText, Option.some.injEq] at ha
    subst ha
    have hmedia : Fits 128 "application/json" := by decide
    exact ensure_eq_ok.mpr ⟨fits_digest _ (by decide), hmedia, Int.natCast_nonneg _, hkind⟩
  have hkind := h.kind he
  simp only [eventKinds, List.mem_cons, List.not_mem_nil, or_false, Prod.mk.injEq] at hkind
  rcases hkind with ⟨-, ht⟩ | ⟨-, ht⟩ | ⟨hty, ht⟩ | ⟨hty, ht⟩ | ⟨hty, ht⟩ | ⟨hty, ht⟩ | ⟨hty, ht⟩
  · obtain ⟨bundle, assurance, hr, -⟩ := lawful_declared h he ht
    obtain ⟨_, -, hpayload⟩ := hr.payload
    exact read "bundle" (by decide) (by rw [artifactKey, ht, hpayload]; rfl)
  · exact absurd ht het
  · obtain ⟨_, _, _, _, _, _, -, -, -, -, -, hpayload⟩ := h.submission hl hty
    exact read "proof_submission" (by decide) (by rw [artifactKey, ht, hpayload]; rfl)
  · obtain ⟨_, _, _, _, _, _, -, -, -, -, hpayload⟩ := h.gap hl hty
    exact read "gap_report" (by decide) (by rw [artifactKey, ht, hpayload]; rfl)
  · obtain ⟨_, _, _, _, _, _, -, -, -, -, hpayload⟩ := h.change hl hty
    exact read "contract_change_request" (by decide) (by rw [artifactKey, ht, hpayload]; rfl)
  all_goals
    obtain ⟨_, _, _, _, _, _, _, _, -, -, -, -, -, -, -, -, hpayload, -⟩ := h.verdict hl hty
    exact read "verification_report" (by decide) (by rw [artifactKey, ht, hpayload]; rfl)

theorem runFromSubmission_cost {payload : JsonObject} {proofId : String} {run : RunView}
    (h : runFromSubmission payload proofId = .ok run) : NonNegative run.costUsd := by
  obtain ⟨hencodable, h⟩ := ensure_bind_eq_ok.mp h
  cases h
  change NonNegative ((optionalFloat payload "cost_usd").getD (.finite 0))
  unfold optionalFloat at *
  split
  · split
    · exact le_refl (0 : ℚ)
    · rename_i hn
      exact Int.cast_nonneg (not_lt.mp hn)
  · split
    · exact le_refl (0 : ℚ)
    · rename_i hq
      exact not_lt.mp hq
  · exact trivial
  · rename_i hnan
    rw [hnan] at hencodable
    exact absurd hencodable (by decide)
  · exact le_refl (0 : ℚ)

/-- What the reader takes a run of a lawful log for. -/
theorem lawful_run_read (h : Lawful svc commands w) (he : e ∈ w.database.events) {run : RunView} (hrun : RunOf e run) :
    readRunSummary run = .ok () ↔ ((e.payload.text "provider").getD "unattributed").length ≤ 128 ∧
      ((e.payload.text "model").getD "unattributed").length ≤ 256 := by
  obtain ⟨first, hfirst, hsame⟩ := hrun.started
  have hcost := runFromSubmission_cost hfirst
  obtain ⟨hid, ht⟩ := lawful_submitted h he hrun.submitted
  obtain ⟨before, after, hl⟩ := List.append_of_mem he
  obtain ⟨_, _, _, submission, _, _, -, -, -, hentity, -, -⟩ := h.submission hl ht
  have hproof : Fits 256 run.id := by
    rw [hrun.id_eq, hid, hentity]
    exact fits_identifier _ (by decide)
  have htask : Fits 256 ((e.payload.text "bundle_id").getD "unknown") := by
    cases htext : e.payload.text "bundle_id" with
    | none => decide
    | some bundleId =>
      obtain ⟨i, htask⟩ := lawful_taskId h he
      rw [eventTaskId, htext, Option.some.injEq] at htask
      rw [Option.getD_some, htask]
      exact fits_identifier i (by decide)
  have hattribution (key : String) : (e.payload.text key).getD "unattributed" ≠ "" := by
    cases htext : e.payload.text key with
    | none => decide
    | some text => exact text_nonempty htext
  have hstatus : Fits 64 run.status ∧ Fits 64 run.verification := by
    have hjudged := hrun.judged
    generalize run.status = a, run.verification = b at hjudged
    simp only [List.mem_cons, List.not_mem_nil, or_false, Prod.mk.injEq] at hjudged
    rcases hjudged with ⟨rfl, rfl⟩ | ⟨rfl, rfl⟩ | ⟨rfl, rfl⟩ <;> decide
  obtain ⟨-, hfirst⟩ := ensure_bind_eq_ok.mp hfirst
  cases hfirst
  rw [readRunSummary, ensure_eq_ok]
  have hprovider : Fits 128 run.provider ↔ ((e.payload.text "provider").getD "unattributed").length ≤ 128 := by
    rw [hsame]
    exact fits_of_nonempty (hattribution "provider")
  have hmodel : Fits 256 run.model ↔ ((e.payload.text "model").getD "unattributed").length ≤ 256 := by
    rw [hsame]
    exact fits_of_nonempty (hattribution "model")
  rw [← hprovider, ← hmodel]
  constructor
  · rintro ⟨-, -, hp, hm, -⟩
    exact ⟨hp, hm⟩
  · rintro ⟨hp, hm⟩
    exact ⟨hproof, by rw [hsame]; exact htask, hp, hm, hstatus.1, by rw [hsame]; exact hcost, hstatus.2⟩

theorem lawful_runs_read (h : Lawful svc commands w) {v : Views} (hv : Told w.database.events v) :
    (∀ run ∈ v.runs, readRunSummary run = .ok ()) ↔ ∀ e ∈ w.database.events, e.eventType = "proof.submitted" →
      ((e.payload.text "provider").getD "unattributed").length ≤ 128 ∧
        ((e.payload.text "model").getD "unattributed").length ≤ 256 := by
  constructor
  · intro hread e he het
    obtain ⟨run, hrun, hid⟩ := List.mem_map.mp (hv.submitted e he het)
    obtain ⟨e', he', hof⟩ := hv.runs run hrun
    obtain ⟨hproof, ht⟩ := lawful_submitted h he het
    obtain ⟨hproof', ht'⟩ := lawful_submitted h he' hof.submitted
    have hentity : e'.entityId = e.entityId := by rw [← hproof', ← hproof, ← hof.id_eq, hid]
    have hsame : e' = e := h.alone he' he (ht'.trans ht.symm) hentity (by rw [ht']; decide)
    exact (lawful_run_read h he (hsame ▸ hof)).mp (hread run hrun)
  · intro hbounds run hrun
    obtain ⟨e, he, hof⟩ := hv.runs run hrun
    exact (lawful_run_read h he hof).mpr (hbounds e he hof.submitted)

end Autolean.Dashboard
