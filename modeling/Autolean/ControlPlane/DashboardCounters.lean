import Autolean.ControlPlane.Projection
import Autolean.ControlPlane.Claims
import Autolean.Machine.LastWrites

/-! The counters of a snapshot against the statuses of its nodes. Nodes hold the last effect on
their bundle; a bundle once blocked is counted as blocked for good. -/
namespace Autolean.ControlPlane.Projection
open Contracts Machine Raising

/-- What an event does to its bundle. -/
inductive Effect where
  | claimed
  | blocked
  | accepted
  deriving DecidableEq

def Effect.status : Effect → String
  | .claimed => "running"
  | .blocked => "blocked"
  | .accepted => "verified"

/-- The bundle an event is about and what it does to it. -/
def effectOf (e : StoredEvent) : Option (String × Effect) :=
  if e.eventType = "task.claimed" then (eventTaskId e).map fun bundleId => (bundleId, .claimed)
  else if e.eventType = "gap.reported" ∨ e.eventType = "contract_change.requested" then
    (eventTaskId e).map fun bundleId => (bundleId, .blocked)
  else if "verification.".toList.isPrefixOf e.eventType.toList then
    match verificationAccepted e with
    | .ok true => (eventTaskId e).map fun bundleId => (bundleId, .accepted)
    | .ok false => (eventTaskId e).map fun bundleId => (bundleId, .blocked)
    | .error _ => none
  else none

namespace Snapshot

def apply (s : Snapshot) (bundleId : String) : Effect → Snapshot
  | .claimed => s.claimed bundleId
  | .blocked => s.blocked bundleId
  | .accepted => s.verified bundleId true

variable {s s' : Snapshot} {e : StoredEvent}

/-- A step adds the nodes of a registration, or has the effect of its event, or changes nothing. -/
theorem step_cases (h : s.step e = .ok s') :
    (e.eventType = "task.registered" ∧ effectOf e = none ∧
      s' = { s with nodes := (registeredNodes e).foldl putNode s.nodes }) ∨
    (e.eventType ≠ "task.registered" ∧ ∃ bundleId effect, effectOf e = some (bundleId, effect) ∧
      s' = s.apply bundleId effect) ∨
    (e.eventType ≠ "task.registered" ∧ effectOf e = none ∧ s' = s) := by
  rw [step] at h
  split_ifs at h with hregistered hclaimed hsubmitted hblocked hverdict
  · cases h
    exact .inl ⟨hregistered, by simp [effectOf, hregistered], rfl⟩
  · cases h
    cases htask : eventTaskId e with
    | none => exact .inr (.inr ⟨hregistered, by simp [effectOf, hclaimed, htask], rfl⟩)
    | some bundleId => exact .inr (.inl ⟨hregistered, bundleId, .claimed, by simp [effectOf, hclaimed, htask], rfl⟩)
  · cases h
    exact .inr (.inr ⟨hregistered, by simp [effectOf, hsubmitted], rfl⟩)
  · cases h
    cases htask : eventTaskId e with
    | none => exact .inr (.inr ⟨hregistered, by simp [effectOf, hclaimed, hblocked, htask], rfl⟩)
    | some bundleId =>
      exact .inr (.inl ⟨hregistered, bundleId, .blocked, by simp [effectOf, hclaimed, hblocked, htask], rfl⟩)
  · obtain ⟨accepted, haccepted, h⟩ := bind_eq_ok.mp h
    cases h
    cases htask : eventTaskId e with
    | none =>
      refine .inr (.inr ⟨hregistered, ?_, rfl⟩)
      rw [effectOf, if_neg hclaimed, if_neg hblocked, if_pos hverdict, haccepted, htask]
      cases accepted <;> rfl
    | some bundleId =>
      refine .inr (.inl ⟨hregistered, bundleId, if accepted then .accepted else .blocked, ?_, ?_⟩)
      · rw [effectOf, if_neg hclaimed, if_neg hblocked, if_pos hverdict, haccepted, htask]
        cases accepted <;> rfl
      · cases accepted <;> rfl
  · cases h
    exact .inr (.inr ⟨hregistered, by rw [effectOf, if_neg hclaimed, if_neg hblocked, if_neg hverdict], rfl⟩)

/-- The nodes hold the last effect on their bundle, and the counters the bundles last claimed
and those ever blocked. -/
structure Agrees (past : List (String × Effect)) (s : Snapshot) : Prop where
  nodes : ∀ node ∈ s.nodes, node.status = (lastWrite past node.bundleId).elim "frozen" Effect.status
  active : ∀ bundleId, bundleId ∈ s.activeBundles ↔ lastWrite past bundleId = some .claimed
  blocked : ∀ bundleId, bundleId ∈ s.blockedBundles ↔ (bundleId, .blocked) ∈ past

variable {past : List (String × Effect)}

theorem nodes_apply (s : Snapshot) (bundleId : String) (effect : Effect) :
    (s.apply bundleId effect).nodes = setTaskStatus s.nodes bundleId effect.status := by
  cases effect <;> rfl

theorem Agrees.apply (h : Agrees past s) (bundleId : String) (effect : Effect) :
    Agrees (past ++ [(bundleId, effect)]) (s.apply bundleId effect) where
  nodes := by
    rw [nodes_apply, setTaskStatus]
    refine List.forall_mem_map.mpr fun node hnode => ?_
    by_cases hbundle : node.bundleId = bundleId
    · rw [if_pos hbundle, lastWrite_snoc, if_pos hbundle.symm]
      rfl
    · rw [if_neg hbundle, lastWrite_snoc, if_neg (Ne.symm hbundle)]
      exact h.nodes node hnode
  active other := by
    rw [lastWrite_snoc]
    by_cases hbundle : bundleId = other
    · cases hbundle
      cases effect <;> simp [Snapshot.apply, claimed, Snapshot.blocked, verified]
    · rw [if_neg hbundle, ← h.active]
      cases effect <;> simp [Snapshot.apply, claimed, Snapshot.blocked, verified, Ne.symm hbundle]
  blocked other := by
    rw [List.mem_append, List.mem_singleton, ← h.blocked]
    cases effect <;> simp [Snapshot.apply, claimed, Snapshot.blocked, verified, or_comm]

theorem Agrees.register (h : Agrees past s) {added : List PublicNode}
    (hadded : ∀ node ∈ added, node.status = "frozen" ∧ lastWrite past node.bundleId = none) :
    Agrees past { s with nodes := s.nodes ++ added } where
  nodes node hnode := by
    rcases List.mem_append.mp hnode with hold | hnew
    · exact h.nodes node hold
    · obtain ⟨hstatus, hnone⟩ := hadded node hnew
      rw [hnone, hstatus]
      rfl
  active := h.active
  blocked := h.blocked

theorem agrees_empty : Agrees [] empty where
  nodes := by simp [empty]
  active := by simp [empty]
  blocked := by simp [empty]

end Snapshot

/-! Lawful logs -/

section Log
variable {θ : Type} {svc : Service} {commands : θ → Command} {w : World} {e : StoredEvent}
  {before after : List StoredEvent}

theorem eventTaskId_of_payload {bundleId : String} (h : e.payload.get "bundle_id" = some (.str bundleId))
    (hne : bundleId ≠ "") :
    eventTaskId e = some bundleId := by
  have htext : e.payload.text "bundle_id" = some bundleId := by
    rw [JsonObject.text, h]
    exact if_neg hne
  rw [eventTaskId, htext]

theorem registered_nonempty (h : Lawful svc commands w) {log : List StoredEvent} (hl : log ⊆ w.database.events)
    {bundleId : String} {binding : TaskBinding} (hr : Registered log bundleId binding) : bundleId ≠ "" := by
  obtain ⟨_, bundle, _, -, rfl, -⟩ := h.registered hl hr
  exact ne_empty_of_not_blank bundle.bundleId.not_blank

theorem lawful_claim (h : Lawful svc commands w) (hl : w.database.events = before ++ e :: after)
    (het : e.eventType = "task.claimed") :
    ∃ bundleId binding, Registered before bundleId binding ∧ eventTaskId e = some bundleId := by
  have hbefore : before ⊆ w.database.events := by
    rw [hl]
    exact List.subset_append_left _ _
  obtain ⟨i, call, hc, hr⟩ := h.origin hl
  have hid := hr.entityId
  have hty := hr.entityType
  generalize commands i = command at hc
  cases hc with
  | claimed keyed registered =>
    have hpayload := (hr.event rfl).2
    refine ⟨_, _, registered, ?_⟩
    have htext : e.payload.text "bundle_id" = none := by
      rw [hpayload]
      rfl
    rw [eventTaskId, htext, hid]
    exact if_pos ⟨hty, registered_nonempty h hbefore registered⟩
  | verdict =>
    have hev := (hr.event rfl).1
    rw [het] at hev
    simp only [verdictType] at hev
    split at hev <;> simp at hev
  | registered | submitted | gap | change =>
    have hev := (hr.event rfl).1
    rw [het] at hev
    simp at hev

theorem eventTaskId_of_effect {bundleId : String} {effect : Effect} (h : effectOf e = some (bundleId, effect)) :
    eventTaskId e = some bundleId := by
  have named {effect' : Effect}
      (hmap : ((eventTaskId e).map fun bundleId => (bundleId, effect')) = some (bundleId, effect)) :
      eventTaskId e = some bundleId := by
    obtain ⟨bundleId', htask, heq⟩ := Option.map_eq_some_iff.mp hmap
    rw [htask, (Prod.mk.inj heq).1]
  rw [effectOf] at h
  split_ifs at h
  · exact named h
  · exact named h
  · split at h
    · exact named h
    · exact named h
    · cases h

/-- An event acts on a bundle that was registered before it. -/
theorem lawful_effect (h : Lawful svc commands w) (hl : w.database.events = before ++ e :: after) {bundleId : String}
    {effect : Effect} (heffect : effectOf e = some (bundleId, effect)) :
    ∃ binding, Registered before bundleId binding := by
  have he : e ∈ w.database.events := by simp [hl]
  have hbefore : before ⊆ w.database.events := by
    rw [hl]
    exact List.subset_append_left _ _
  have htask := eventTaskId_of_effect heffect
  have hkind := h.kind he
  have found {bundleId' : String} {binding : TaskBinding} (hr : Registered before bundleId' binding)
      (htask' : eventTaskId e = some bundleId') : ∃ binding, Registered before bundleId binding := by
    rw [htask, Option.some_inj] at htask'
    exact ⟨binding, htask' ▸ hr⟩
  simp only [eventKinds, List.mem_cons, List.not_mem_nil, or_false, Prod.mk.injEq] at hkind
  rcases hkind with ⟨-, het⟩ | ⟨-, het⟩ | ⟨-, het⟩ | ⟨ht, -⟩ | ⟨ht, -⟩ | ⟨ht, -⟩ | ⟨ht, -⟩
  · simp [effectOf, het] at heffect
  · obtain ⟨_, _, hr, htask'⟩ := lawful_claim h hl het
    exact found hr htask'
  · simp [effectOf, het] at heffect
  · obtain ⟨_, _, _, _, _, _, -, hr, -, -, hpayload⟩ := h.gap hl ht
    exact found hr (eventTaskId_of_payload (by rw [hpayload]; rfl) (registered_nonempty h hbefore hr))
  · obtain ⟨_, _, _, _, _, _, -, hr, -, -, hpayload⟩ := h.change hl ht
    exact found hr (eventTaskId_of_payload (by rw [hpayload]; rfl) (registered_nonempty h hbefore hr))
  all_goals
    obtain ⟨_, _, _, _, _, _, _, _, -, hr, -, -, -, -, -, -, hpayload, -⟩ := h.verdict hl ht
    exact found hr (eventTaskId_of_payload (by rw [hpayload]; rfl) (registered_nonempty h hbefore hr))

theorem status_publicNodes {bundle : Handoff} {node : PublicNode} (h : node ∈ publicNodes bundle) :
    node.status = "frozen" := by
  simp only [publicNodes, publicNodesOf, List.mem_append, List.mem_map] at h
  rcases h with (⟨_, -, rfl⟩ | ⟨_, -, rfl⟩) | ⟨_, -, rfl⟩ <;> rfl

/-- A registration adds frozen nodes of a bundle that nothing has acted on. -/
theorem lawful_untouched (h : Lawful svc commands w) (hl : w.database.events = before ++ e :: after)
    (het : e.eventType = "task.registered") :
    ∀ node ∈ declaredBy e, node.status = "frozen" ∧ lastWrite (before.filterMap effectOf) node.bundleId = none := by
  have he : e ∈ w.database.events := by simp [hl]
  obtain ⟨bundle, assurance, hregistered, hdeclared⟩ := lawful_declared h he het
  intro node hnode
  rw [hdeclared] at hnode
  refine ⟨status_publicNodes hnode, lastWrite_eq_none.mpr fun hmem => ?_⟩
  obtain ⟨⟨bundleId, effect⟩, hwrite, hbundle⟩ := List.mem_map.mp hmem
  obtain ⟨e', he', heffect⟩ := List.mem_filterMap.mp hwrite
  obtain ⟨front, back, rfl⟩ := List.append_of_mem he'
  have hfront : w.database.events = front ++ e' :: (back ++ e :: after) := by
    rw [hl, List.append_assoc, List.cons_append]
  obtain ⟨binding, hr⟩ := lawful_effect h hfront heffect
  have hsub : front ⊆ w.database.events := by
    rw [hfront]
    exact List.subset_append_left _ _
  obtain ⟨r, bundle', assurance', hregistered', hid, -⟩ := h.registered hsub hr
  have hsame : r = e := by
    apply h.registration_unique (hsub hregistered'.mem) he hregistered'.entityType hregistered.entityType
      hregistered'.eventType het
    rw [hregistered'.entityId, hregistered.entityId, ← hid, ← (mem_publicNodes hnode).1]
    exact hbundle
  have hnodup : w.database.events.Nodup := h.coherent.ids.of_map _
  rw [hfront, ← hsame] at hnodup
  exact (List.nodup_append.mp hnodup).2.2 r hregistered'.mem r (by simp) rfl

/-- A replay keeps the nodes and the counters in agreement with the effects of its events. -/
theorem lawful_replay_agrees (h : Lawful svc commands w) {seen rest : List StoredEvent}
    (hl : w.database.events = seen ++ rest) {s s' : Snapshot} (hrun : rest.foldlM Snapshot.step s = .ok s')
    (hs : Snapshot.Agrees (seen.filterMap effectOf) s)
    (hids : s.nodes.map (·.toNodeIdentity) = (seen.flatMap declaredBy).map (·.toNodeIdentity)) :
    Snapshot.Agrees (w.database.events.filterMap effectOf) s' := by
  induction rest generalizing seen s with
  | nil =>
    cases hrun
    rwa [hl, List.append_nil]
  | cons e rest ih =>
    rw [List.foldlM_cons] at hrun
    obtain ⟨next, hstep, hrun⟩ := bind_eq_ok.mp hrun
    have hl' : w.database.events = (seen ++ [e]) ++ rest := by rw [hl, List.append_assoc, List.singleton_append]
    have hfresh : ((s.nodes ++ declaredBy e).map (·.id)).Nodup := by
      have hall := lawful_declared_nodup h (List.Perm.refl _)
      rw [hl', List.flatMap_append, List.map_append, List.flatMap_append, List.flatMap_singleton] at hall
      have hnodes : (s.nodes ++ declaredBy e).map (·.id) = (seen.flatMap declaredBy ++ declaredBy e).map (·.id) := by
        have hmap := congrArg (List.map NodeIdentity.id) hids
        rw [List.map_map, List.map_map] at hmap
        rw [List.map_append, List.map_append]
        exact congrArg (· ++ _) hmap
      rw [hnodes]
      exact hall.of_append_left
    have hnext := Snapshot.step_identities hstep hfresh
    apply ih hl' hrun
    · rw [List.filterMap_append]
      obtain ⟨het, hnone, rfl⟩ | ⟨-, bundleId, effect, heffect, rfl⟩ | ⟨-, hnone, rfl⟩ := Snapshot.step_cases hstep
      · have hdeclared : registeredNodes e = declaredBy e := (if_pos het).symm
        rw [hdeclared, foldl_putNode hfresh, List.filterMap_cons_none hnone, List.filterMap_nil, List.append_nil]
        exact hs.register (lawful_untouched h hl het)
      · rw [List.filterMap_cons_some heffect, List.filterMap_nil]
        exact hs.apply bundleId effect
      · rw [List.filterMap_cons_none hnone, List.filterMap_nil, List.append_nil]
        exact hs
    · rw [hnext, List.map_append, hids, List.flatMap_append, List.flatMap_singleton, List.map_append]

/-- The log of a lawful world is in the order of its positions. -/
theorem inOrder_events (h : Lawful svc commands w) : inOrder w.database.events = w.database.events := by
  apply List.Pairwise.insertionSort_eq
  exact (List.pairwise_map.mp h.coherent.positions).imp fun hlt => hlt.le

theorem lawful_snapshot_agrees (h : Lawful svc commands w) :
    ∃ s, snapshot w.database.events = .ok s ∧ Snapshot.Agrees (w.database.events.filterMap effectOf) s ∧
      s.nodes.map (·.toNodeIdentity) = (w.database.events.flatMap declaredBy).map (·.toNodeIdentity) := by
  obtain ⟨s, hs, hids⟩ := lawful_snapshot h (List.Perm.refl _)
  rw [inOrder_events h] at hids
  refine ⟨s, hs, ?_, hids⟩
  rw [snapshot, inOrder_events h] at hs
  have hstart : w.database.events = [] ++ w.database.events := rfl
  exact lawful_replay_agrees h hstart hs Snapshot.agrees_empty rfl

end Log

/-! The counters -/

/-- `overview.active_runs`. -/
def Snapshot.activeRuns (s : Snapshot) : Nat := s.activeBundles.card

/-- `overview.blocked_nodes`. -/
def Snapshot.blockedNodes (s : Snapshot) : Nat := s.blockedBundles.card

/-- The bundles with nodes of the status. -/
def bundlesWith (nodes : List PublicNode) (status : String) : Finset String :=
  ((nodes.filter fun node => node.status = status).map (·.bundleId)).toFinset

/-- After a claim or an accepted verdict of a bundle that was blocked before, it is blocked again. -/
def StaysBlocked (events : List StoredEvent) : Prop :=
  ∀ before e after bundleId effect, events = before ++ e :: after → effectOf e = some (bundleId, effect) →
    effect ≠ .blocked → (∃ e' ∈ before, effectOf e' = some (bundleId, .blocked)) →
      ∃ e' ∈ after, effectOf e' = some (bundleId, .blocked)

theorem staysBlocked_iff (events : List StoredEvent) :
    StaysBlocked events ↔ ∀ bundleId, (bundleId, Effect.blocked) ∈ events.filterMap effectOf →
      lastWrite (events.filterMap effectOf) bundleId = some .blocked := by
  rw [lastWrite_of_mem_iff]
  constructor
  · intro h before bundleId effect after hsplit hne hbefore
    obtain ⟨front, back, hl, hfront, hback⟩ := List.filterMap_eq_append_iff.mp hsplit
    obtain ⟨skipped, e, tail, rfl, hskipped, heffect, htail⟩ := List.filterMap_eq_cons_iff.mp hback
    rw [← hfront, List.mem_filterMap] at hbefore
    obtain ⟨e', he', hblocked⟩ := hbefore
    rw [← htail, List.mem_filterMap]
    refine h (front ++ skipped) e tail bundleId effect ?_ heffect hne ⟨e', List.mem_append_left _ he', hblocked⟩
    rw [hl, List.append_assoc]
  · rintro h before e after bundleId effect rfl heffect hne ⟨e', he', hblocked⟩
    rw [List.filterMap_append, List.filterMap_cons_some heffect] at h
    exact List.mem_filterMap.mp (h _ bundleId effect _ rfl hne (List.mem_filterMap.mpr ⟨e', he', hblocked⟩))

section
variable {s : Snapshot} {past : List (String × Effect)}

theorem mem_bundlesWith {nodes : List PublicNode} {status bundleId : String} :
    bundleId ∈ bundlesWith nodes status ↔ ∃ node ∈ nodes, node.bundleId = bundleId ∧ node.status = status := by
  rw [bundlesWith, List.mem_toFinset, List.mem_map]
  simp only [List.mem_filter, decide_eq_true_eq]
  exact exists_congr fun node => by tauto

/-- Where every bundle acted on has nodes, those with the status of an effect are those it befell last. -/
theorem Snapshot.Agrees.mem_bundlesWith (h : s.Agrees past)
    (hnodes : ∀ bundleId ∈ past.map Prod.fst, ∃ node ∈ s.nodes, node.bundleId = bundleId) (effect : Effect)
    (bundleId : String) :
    bundleId ∈ bundlesWith s.nodes effect.status ↔ lastWrite past bundleId = some effect := by
  rw [Projection.mem_bundlesWith]
  constructor
  · rintro ⟨node, hnode, rfl, hstatus⟩
    rw [h.nodes node hnode] at hstatus
    cases hlast : lastWrite past node.bundleId with
    | none =>
      rw [hlast] at hstatus
      cases effect <;> simp [Effect.status] at hstatus
    | some effect' =>
      rw [hlast] at hstatus
      cases effect <;> cases effect' <;> simp [Effect.status] at hstatus <;> rfl
  · intro hlast
    obtain ⟨node, hnode, rfl⟩ := hnodes bundleId (List.mem_map_of_mem (mem_of_lastWrite hlast))
    refine ⟨node, hnode, rfl, ?_⟩
    rw [h.nodes node hnode, hlast]
    rfl

end

section
variable {θ : Type} {svc : Service} {commands : θ → Command} {w : World}

/-- Every bundle acted on has nodes, where every registration has. -/
theorem lawful_nodes (h : Lawful svc commands w) {s : Snapshot}
    (hids : s.nodes.map (·.toNodeIdentity) = (w.database.events.flatMap declaredBy).map (·.toNodeIdentity))
    (hnodes : ∀ e ∈ w.database.events, e.eventType = "task.registered" → registeredNodes e ≠ []) :
    ∀ bundleId ∈ (w.database.events.filterMap effectOf).map Prod.fst, ∃ node ∈ s.nodes, node.bundleId = bundleId := by
  intro bundleId hmem
  obtain ⟨⟨_, effect⟩, hwrite, rfl⟩ := List.mem_map.mp hmem
  obtain ⟨e, he, heffect⟩ := List.mem_filterMap.mp hwrite
  obtain ⟨before, after, hl⟩ := List.append_of_mem he
  obtain ⟨binding, hr⟩ := lawful_effect h hl heffect
  have hbefore : before ⊆ w.database.events := by
    rw [hl]
    exact List.subset_append_left _ _
  obtain ⟨r, bundle, assurance, hregistered, hid, -⟩ := h.registered hbefore hr
  have hr' := hbefore hregistered.mem
  obtain ⟨bundle', _, hregistered', hdeclared⟩ := lawful_declared h hr' hregistered.eventType
  obtain ⟨node, hnode⟩ := List.exists_mem_of_ne_nil _ (hnodes r hr' hregistered.eventType)
  have hdeclaredBy : node ∈ declaredBy r := by
    rw [declaredBy, if_pos hregistered.eventType]
    exact hnode
  have hidentity : node.toNodeIdentity ∈ s.nodes.map (·.toNodeIdentity) := by
    rw [hids]
    exact List.mem_map_of_mem (List.mem_flatMap.mpr ⟨r, hr', hdeclaredBy⟩)
  obtain ⟨shown, hshown, heq⟩ := List.mem_map.mp hidentity
  refine ⟨shown, hshown, ?_⟩
  rw [hdeclared] at hdeclaredBy
  calc
    shown.bundleId = node.bundleId := congrArg NodeIdentity.bundleId heq
    _ = bundle'.bundleId.value := (mem_publicNodes hdeclaredBy).1
    _ = r.entityId := hregistered'.entityId.symm
    _ = bundle.bundleId.value := hregistered.entityId
    _ = _ := hid.symm

/-- The loop over a lawful log returns, and leaves one status for the nodes of a bundle. Where every
registered bundle has nodes the active bundles are those with running nodes, and the blocked ones
are as many as those with blocked nodes exactly when no claim and no accepted verdict has the last
word on a bundle once blocked. -/
theorem lawful_counters (h : Lawful svc commands w) : ∃ s, snapshot w.database.events = .ok s ∧
    (∀ node ∈ s.nodes, ∀ node' ∈ s.nodes, node.bundleId = node'.bundleId → node.status = node'.status) ∧
    ((∀ e ∈ w.database.events, e.eventType = "task.registered" → registeredNodes e ≠ []) →
      s.activeRuns = (bundlesWith s.nodes "running").card ∧ (bundlesWith s.nodes "blocked").card ≤ s.blockedNodes ∧
      (s.blockedNodes = (bundlesWith s.nodes "blocked").card ↔ StaysBlocked w.database.events)) := by
  obtain ⟨s, hs, hagrees, hids⟩ := lawful_snapshot_agrees h
  refine ⟨s, hs, ?_, fun hnodes => ?_⟩
  · intro node hnode node' hnode' hbundle
    rw [hagrees.nodes node hnode, hagrees.nodes node' hnode', hbundle]
  have hmem := hagrees.mem_bundlesWith (lawful_nodes h hids hnodes)
  have hsub : bundlesWith s.nodes "blocked" ⊆ s.blockedBundles := by
    intro bundleId hbundle
    exact (hagrees.blocked bundleId).mpr (mem_of_lastWrite ((hmem .blocked bundleId).mp hbundle))
  refine ⟨congrArg Finset.card ?_, Finset.card_le_card hsub, ?_⟩
  · ext bundleId
    exact (hagrees.active bundleId).trans (hmem .claimed bundleId).symm
  · rw [staysBlocked_iff]
    constructor
    · intro hcard bundleId hblocked
      have heq : bundlesWith s.nodes "blocked" = s.blockedBundles := Finset.eq_of_subset_of_card_le hsub hcard.le
      exact (hmem .blocked bundleId).mp (heq ▸ (hagrees.blocked bundleId).mpr hblocked)
    · intro hstays
      apply congrArg Finset.card
      apply Finset.Subset.antisymm _ hsub
      intro bundleId hbundle
      exact (hmem .blocked bundleId).mpr (hstays bundleId ((hagrees.blocked bundleId).mp hbundle))

end

end Autolean.ControlPlane.Projection
