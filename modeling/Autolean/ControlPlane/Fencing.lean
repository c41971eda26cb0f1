import Autolean.ControlPlane.CommandSpecs

/-! Fencing under any interleaving of lease transactions and commands. A fenced event carries
the token of the lease row that admitted it, and tokens are only ever issued upwards, so a
worker whose lease has been superseded commits nothing any more. -/
namespace Autolean.ControlPlane
open Contracts Machine Raising

/-- The streams of the fenced commands. -/
def fencedEntityTypes : List String := ["proof", "gap", "contract_change_request", "verification"]

/-- The bundle and the fencing token a fenced event carries. -/
def StoredEvent.fence (e : StoredEvent) : Option (String × Int) :=
  if e.entityType ∈ fencedEntityTypes then
    match e.payload.text "bundle_id", e.payload.int "fencing_token" with
    | some bundleId, some token => some (bundleId, token)
    | _, _ => none
  else none

/-- A later event of a bundle carries no smaller token. -/
def TokensOrdered (log : List StoredEvent) : Prop :=
  log.Pairwise fun e e' => ∀ bundleId n n', e.fence = some (bundleId, n) → e'.fence = some (bundleId, n') → n ≤ n'

/-- Every token in the log has been issued. -/
def TokensIssued (db : Database) : Prop :=
  ∀ e ∈ db.events, ∀ bundleId n, e.fence = some (bundleId, n) → n ≤ db.leases.lastToken bundleId

/-- The call is an append under a lease that holds the live row of its bundle, and the event
carries the token of that row. -/
def AdmittedBy (leases : LeaseTables) (now : Instant) (call : AppendCall) (e : StoredEvent) : Prop :=
  ∃ batch bundleId lease expected row, call = .appendFenced batch bundleId lease expected ∧ lease.jobId = bundleId ∧
    leases.workerLeases bundleId = some row ∧ row.holderId = lease.holderId ∧ row.fencingToken = lease.fencingToken ∧
    now < row.expiresAt ∧ e.fence = some (bundleId, (row.fencingToken : Int))

/-- The event a fenced command answers its caller with. -/
def Reply.fencedEvent : Reply → Option StoredEvent
  | .event e => some e
  | .outcome o => some o.event
  | _ => none

section
variable {θ : Type} {svc : Service} {commands : θ → Command} {w w' : World} {r : Readings} {call : AppendCall}
  {e : StoredEvent}

theorem StoredEvent.fence_of_not_fenced (h : e.entityType ∉ fencedEntityTypes) : e.fence = none := by
  simp [StoredEvent.fence, h]

private theorem fence_of_payload {bundleId : String} {n : Int} (ht : e.entityType ∈ fencedEntityTypes)
    (hb : e.payload.text "bundle_id" = some bundleId) (hn : e.payload.int "fencing_token" = some n) :
    e.fence = some (bundleId, n) := by
  simp [StoredEvent.fence, ht, hb, hn]

/-- A newly recorded event of a fenced stream was admitted by the lease of its call. -/
theorem Appends.admitted (h : Appends svc commands w w' r call e) (ht : e.entityType ∈ fencedEntityTypes) :
    AdmittedBy w.database.leases r.now call e := by
  obtain ⟨i, hc⟩ := h.commits
  have admitted {entityType entityId bundleId eventType : String} {lease : Lease} {payload : JsonObject}
      {v : Idempotency} {nonce : Option AttestationNonce}
      (hcall : call = Service.fencedWrite entityType entityId bundleId lease eventType payload v nonce)
      (hn : payload.int "fencing_token" = some (lease.fencingToken : Int)) :
      AdmittedBy w.database.leases r.now call e := by
    subst hcall
    obtain ⟨⟨hjob, row, hrow, ⟨hholder, htoken⟩, hlive⟩, hbound⟩ := h.admits
    have hp := (h.recorded.event rfl).2
    refine ⟨_, bundleId, lease, _, row, rfl, hjob, hrow, hholder, htoken, hlive, fence_of_payload ht ?_ ?_⟩
    · rw [hp]
      exact hbound _ (List.mem_singleton_self _)
    · rw [hp, htoken]
      exact hn
  have hentity := h.recorded.entityType
  generalize commands i = command at hc
  cases hc with
  | registered | claimed =>
    have htask : e.entityType = "task" := hentity
    simp [htask, fencedEntityTypes] at ht
  | submitted | gap | change | verdict => exact admitted rfl rfl

/-- The token a newly recorded event carries is the last one issued for its bundle. -/
theorem Appends.token (h : Appends svc commands w w' r call e) (hw : w.database.leases.WellFormed) {bundleId : String}
    {n : Int} (hf : e.fence = some (bundleId, n)) : n = w.database.leases.lastToken bundleId := by
  have ht : e.entityType ∈ fencedEntityTypes := by
    by_contra hne
    rw [StoredEvent.fence_of_not_fenced hne] at hf
    cases hf
  obtain ⟨_, b, _, _, row, -, -, hrow, -, -, -, hfence⟩ := h.admitted ht
  rw [hfence, Option.some.injEq, Prod.mk.injEq] at hf
  obtain ⟨rfl, rfl⟩ := hf
  exact_mod_cast hw.row_token b row hrow

variable [DecidableEq θ]

/-- What a run of the pool keeps: every thread's promise, and the order of the tokens. -/
structure FencedPool (svc : Service) (commands : θ → Command) (c : CommandPool θ) : Prop where
  sound : c.Sound (protocol svc commands AnyStep) (ThreadHolds svc commands AnyStep)
  issued : TokensIssued c.state.database
  ordered : TokensOrdered c.state.database.events

/-- What has been added to the log since carries no token older than those issued before. -/
def Supersedes (c c' : CommandPool θ) : Prop :=
  c.state.database.leases.Advances c'.state.database.leases ∧
    ∃ added, c'.state.database.events = c.state.database.events ++ added ∧ ∀ e ∈ added, ∀ bundleId n,
      e.fence = some (bundleId, n) → (c.state.database.leases.lastToken bundleId : Int) ≤ n

omit [DecidableEq θ] in
theorem Supersedes.refl (c : CommandPool θ) : Supersedes c c := ⟨.refl _, [], by simp, by simp⟩

omit [DecidableEq θ] in
theorem Supersedes.trans {a b c : CommandPool θ} (h : Supersedes a b) (h' : Supersedes b c) : Supersedes a c := by
  obtain ⟨hadv, added, hev, hn⟩ := h
  obtain ⟨hadv', added', hev', hn'⟩ := h'
  refine ⟨hadv.trans hadv', added ++ added', by rw [hev', hev, List.append_assoc], fun e he bundleId n hf => ?_⟩
  rcases List.mem_append.mp he with he | he
  · exact hn e he bundleId n hf
  · have hle : (a.state.database.leases.lastToken bundleId : Int) ≤ b.state.database.leases.lastToken bundleId := by
      exact_mod_cast hadv.token_le bundleId
    exact hle.trans (hn' e he bundleId n hf)

/-- One step of any thread. -/
theorem FencedPool.step {c : CommandPool θ} (h : FencedPool svc commands c) (l : θ × ServiceInput) :
    FencedPool svc commands (CommandPool.step svc c l) ∧ Supersedes c (CommandPool.step svc c l) := by
  have hadmits : Pool.Admits AnyStep c l := by
    unfold Pool.Admits
    split <;> trivial
  obtain ⟨hsound, hevolves⟩ := h.sound.step hadmits
  have hadv := hevolves.database.leases
  have issued {e : StoredEvent} (he : e ∈ c.state.database.events) {bundleId : String} {n : Int}
      (hf : e.fence = some (bundleId, n)) : n ≤ (CommandPool.step svc c l).state.database.leases.lastToken bundleId := by
    refine (h.issued e he bundleId n hf).trans ?_
    exact_mod_cast hadv.token_le bundleId
  obtain heq | ⟨call, e, k, -, happ⟩ := pool_step_appends h.sound l
  · refine ⟨⟨hsound, fun e he bundleId n hf => ?_, ?_⟩, hadv, [], by rw [heq, List.append_nil], by simp⟩
    · rw [heq] at he
      exact issued he hf
    · rw [heq]
      exact h.ordered
  · have hwell := h.sound.inv.coherent.leases
    refine ⟨⟨hsound, fun e' he' bundleId n hf => ?_, ?_⟩, hadv, [e], happ.events, ?_⟩
    · rw [happ.events] at he'
      rcases List.mem_append.mp he' with he' | he'
      · exact issued he' hf
      · rw [List.mem_singleton.mp he'] at hf
        rw [happ.token hwell hf]
        exact_mod_cast hadv.token_le bundleId
    · rw [happ.events]
      refine List.pairwise_append.mpr ⟨h.ordered, List.pairwise_singleton _ _, ?_⟩
      intro a ha b hb bundleId n n' hfa hfb
      rw [List.mem_singleton.mp hb] at hfb
      rw [happ.token hwell hfb]
      exact h.issued a ha bundleId n hfa
    · intro e' he' bundleId n hf
      rw [List.mem_singleton.mp he'] at hf
      exact le_of_eq (happ.token hwell hf).symm

omit [DecidableEq θ] in
theorem start_fenced (svc : Service) (commands : θ → Command) : FencedPool svc commands (CommandPool.start svc commands) where
  sound := start_sound svc commands AnyStep
  issued := by simp [TokensIssued, CommandPool.start, Database.empty]
  ordered := List.Pairwise.nil

theorem FencedPool.run {c : CommandPool θ} (h : FencedPool svc commands c) (labels : List (θ × ServiceInput)) :
    FencedPool svc commands (run (CommandPool.step svc) c labels) ∧ Supersedes c (run (CommandPool.step svc) c labels) :=
  run_keeps (FencedPool svc commands) Supersedes .refl .trans (fun h l => h.step l) h labels

/-- An append under a recorded key changes nothing. -/
theorem step_under_key {c : CommandPool θ} {l : θ × ServiceInput} {call : AppendCall}
    {k : Raises (List StoredEvent) → Call Reply} (hc : c.threads l.1 = .call (.store (.write call)) k) {v : Idempotency}
    (hv : call.batch.idempotency = some v) (hrow : c.state.database.idempotencyRecords v.primaryKey ≠ none) :
    (CommandPool.step svc c l).state = c.state := by
  rw [show CommandPool.step svc c l = _ from Pool.step_call svc.exec hc]
  obtain ⟨row, hrow⟩ := Option.ne_none_iff_exists'.mp hrow
  simp only [Service.exec, StoreOp.exec]
  cases ht : call.transaction c.state.database l.2.readings with
  | error e => rfl
  | ok res =>
    obtain ⟨events, db⟩ := res
    obtain ⟨-, -, rfl⟩ := AppendCall.transaction_under_key ht hv hrow
    rfl

/-- The fenced commands and the lease transactions of any number of workers, in any order and at
any clock readings: every event a step adds to a fenced stream was admitted by the live lease
row whose token it carries; the tokens of a bundle's events only grow along the log; an
event committed after a lease was issued carries no smaller token; and a recorded key is
answered with its event and writes nothing. -/
theorem fencing_safe (svc : Service) (commands : θ → Command) (labels later : List (θ × ServiceInput)) :
    let c := run (CommandPool.step svc) (CommandPool.start svc commands) labels
    let c' := run (CommandPool.step svc) c later
    (∀ l, ∃ added, (CommandPool.step svc c l).state.database.events = c.state.database.events ++ added ∧
      ∀ e ∈ added, e.entityType ∈ fencedEntityTypes → ∃ call k, c.threads l.1 = .call (.store (.write call)) k ∧
        AdmittedBy c.state.database.leases l.2.readings.now call e) ∧
    TokensOrdered c.state.database.events ∧
    (∀ bundleId row, c.state.database.leases.workerLeases bundleId = some row →
      ∃ added, c'.state.database.events = c.state.database.events ++ added ∧
        ∀ e ∈ added, ∀ n, e.fence = some (bundleId, n) → (row.fencingToken : Int) ≤ n) ∧
    (∀ l call k v, c.threads l.1 = .call (.store (.write call)) k → call.batch.idempotency = some v →
      c.state.database.idempotencyRecords v.primaryKey ≠ none → (CommandPool.step svc c l).state = c.state) ∧
    ∀ i v e reply e', (commands i).KeyedBy svc v → c.state.database.BoundTo v.primaryKey v.requestHash [e] →
      c'.threads i = .done (.ok reply) → reply.fencedEvent = some e' → e' = e := by
  intro c c'
  obtain ⟨hc, -⟩ := (start_fenced svc commands).run labels
  obtain ⟨hc', -, added, hevents, htokens⟩ := FencedPool.run hc later
  refine ⟨fun l => ?_, hc.ordered, ?_, ?_, ?_⟩
  · obtain heq | ⟨call, e, k, hcall, happ⟩ := pool_step_appends hc.sound l
    · exact ⟨[], by rw [heq, List.append_nil], by simp⟩
    · refine ⟨[e], happ.events, fun e' he' ht => ⟨call, k, hcall, ?_⟩⟩
      rw [List.mem_singleton.mp he'] at ht ⊢
      exact happ.admitted ht
  · intro bundleId row hrow
    refine ⟨added, hevents, fun e he n hf => ?_⟩
    rw [hc.sound.inv.coherent.leases.row_token bundleId row hrow]
    exact htokens e he bundleId n hf
  · exact fun l call k v hcall hv hrow => step_under_key hcall hv hrow
  · intro i v e reply e' hkey hbound hdone hevent
    have hbound' := hbound.extends (run_evolves hc.sound later).database
    have answered {e₁ : StoredEvent}
        (h : ∃ v, (commands i).KeyedBy svc v ∧ c'.state.database.BoundTo v.primaryKey v.requestHash [e₁]) : e₁ = e := by
      obtain ⟨v', hkey', hb⟩ := h
      rw [hkey'.unique hkey] at hb
      have heq := (hb.unique hbound').2
      simpa using heq
    have hreply := hc'.sound.result hdone reply rfl
    cases reply with
    | event e₁ =>
      cases hevent
      exact answered hreply
    | outcome o =>
      cases hevent
      exact answered hreply
    | _ => cases hevent

end
end Autolean.ControlPlane
