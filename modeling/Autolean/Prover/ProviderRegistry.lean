import Autolean.ControlPlane.Circuit
import Autolean.Machine.Exchanges
import Autolean.Prover.Providers

/-! Model generation under a signed authorization. The provider, its capability probe and
the authorization gate may answer every call as they like; whatever they do, a reservation
ends in one settlement or in one attempt to abandon it. -/
namespace Autolean.Prover.Providers
open Contracts Machine
open Text (PyText)

/-- The properties of a provider, as they are read. -/
structure ProviderProperties where
  providerId : PyObject
  modelId : PyObject
  endpointClass : PyObject
  configurationHash : PyObject
  capabilities : PyObject

/-- What the gate is asked to admit. -/
structure ModelCall where
  provider : ModelExecutionProviderBinding
  requestedInputTokens : Int
  requestedOutputTokens : Int
  contextPackHash : Option Digest
  outboundRequestHash : Digest

/-- The calls that leave the registry. `ρ` is whatever the gate returns as a reservation. -/
inductive RegistryOp (ρ : Type) where
  | properties (registryName : String)
  | preflight (authorization : ModelExecutionAuthorization) (call : ModelCall)
  | reserve (authorization : ModelExecutionAuthorization) (call : ModelCall)
  | probe (registryName : String)
  | generate (registryName : String) (request : ModelRequest)
  | settle (reservation : ρ) (inputTokens cachedInputTokens outputTokens : Int)
  | abandon (reservation : ρ) (failureCode : String)

/-- What a provider returns: a `ModelResponse`, or anything else. -/
abbrev GenerateReply := ModelResponse ⊕ PyObject

abbrev registryCalls (ρ : Type) : Interface where
  Op := RegistryOp ρ
  Res
    | .properties _ => ProviderProperties
    | .preflight .. => Unit
    | .reserve .. => ρ
    | .probe _ => PyObject
    | .generate .. => GenerateReply
    | .settle .. => Unit
    | .abandon .. => Unit

inductive ProviderFailureCode where
  | probeFailed
  | probeInvalid
  | probeCapabilityMismatch
  | generationFailed
  | responseInvalid
  | settlementRejected
  | localPolicyRejected
  deriving DecidableEq

def ProviderFailureCode.value : ProviderFailureCode → String
  | probeFailed => "probe_failed_v1"
  | probeInvalid => "probe_invalid_v1"
  | probeCapabilityMismatch => "probe_capability_mismatch_v1"
  | generationFailed => "generation_failed_v1"
  | responseInvalid => "response_invalid_v1"
  | settlementRejected => "settlement_rejected_v1"
  | localPolicyRejected => "local_policy_rejected_v1"

structure RegisteredProvider where
  providerId : PyText
  modelId : PyText
  modelRevision : String
  endpointClass : EndpointClass
  configurationHash : Digest
  binding : ModelExecutionProviderBinding
  declaredCapabilities : ProviderCapabilities

structure ProviderRegistry where
  providers : List (String × RegisteredProvider)
  /-- An authorization gate was injected. -/
  hasGate : Bool
  tables : TextTables
  /-- `digest_model` of a request; `none` when it has no canonical encoding. -/
  requestDigest : ModelRequest → Option Digest

variable {ρ : Type}

/-- The local variables of `generate` that its `finally` clause reads. -/
structure Locals where
  settled : Bool
  failureCode : ProviderFailureCode

abbrev Call (ρ : Type) := Prog (registryCalls ρ) Raised
abbrev Attempt (ρ : Type) := Body (registryCalls ρ) Raised Locals

def setFailureCode (code : ProviderFailureCode) : Attempt ρ Unit :=
  modify fun locals => { locals with failureCode := code }

/-- `except Exception: raise error from None`. -/
def orRaise {α : Type} (call : Call ρ α) (error : Raised) : Call ρ α :=
  tryCatch call fun raised => if raised.isException then throw error else throw raised

/-- `raise` with a message that ends in the failure code. -/
def raiseCoded {α : Type} (error : String → Raised) (message : String) : Attempt ρ α := do
  let locals ← get
  throw (error (message ++ " (" ++ locals.failureCode.value ++ ")"))

namespace ProviderRegistry
variable (registry : ProviderRegistry)

/-- `_read_provider_binding`. -/
def readProviderBinding (registryName : String) :
    Call ρ (PyText × PyText × ProviderCapabilities × EndpointClass × PyObject) := do
  let read ← orRaise (.perform (I := registryCalls ρ) (.properties registryName))
    (.configurationError "provider properties could not be read during registration")
  let (.str providerId, .str modelId) := (read.providerId, read.modelId)
    | throw (.configurationError "provider_id and model_id must be strings")
  let .capabilities capabilities := read.capabilities
    | throw (.configurationError "provider capabilities must be ProviderCapabilities")
  let .endpointClass endpointClass := read.endpointClass
    | throw (.configurationError "provider endpoint_class must be EndpointClassV1")
  let .digest kind configurationHash := read.configurationHash
    | throw (.configurationError "provider configuration_hash must be DigestV1")
  pure (providerId, modelId, capabilities, endpointClass, .digest kind configurationHash)

/-- `_assert_provider_binding`. A registered configuration hash is of kind `config`. -/
def assertProviderBinding (registered : RegisteredProvider) (name : String) : Call ρ Unit := do
  let (providerId, modelId, capabilities, endpointClass, configurationHash) ← readProviderBinding name
  .ofExcept (registry.tables.validateProviderIdentity providerId modelId)
  .ofExcept (ensure (providerId = registered.providerId ∧ modelId = registered.modelId ∧
      endpointClass = registered.endpointClass ∧ configurationHash = .digest "config" registered.configurationHash ∧
      capabilities = registered.declaredCapabilities)
    (.policyViolation ("provider " ++ registry.tables.quoted (PyText.of name) ++
      " changed identity, model, endpoint, configuration, or declared capabilities after registration")))

def outboundRequestHash (request : ModelRequest) : Except Raised Digest :=
  match registry.requestDigest request with
  | some digest => .ok digest
  | none => .error (.configurationError "model request cannot be canonically hashed")

/-- The response and its usage, when they pass the checks on an authorized response. -/
def authorizedResponse (registered : RegisteredProvider) (request : ModelRequest) :
    GenerateReply → Option (ModelResponse × TokenUsage)
  | .inl response =>
    match response.text, response.usage with
    | .str _, .usage usage =>
      if response.providerId = .str registered.providerId ∧ response.modelId = .str registered.modelId ∧
          0 < usage.inputTokens ∧ usage.inputTokens ≤ request.maxInputTokens ∧ 0 ≤ usage.outputTokens ∧
          usage.outputTokens ≤ request.maxOutputTokens ∧ usage.cachedInputTokens ≤ usage.inputTokens then
        some (response, usage)
      else none
    | _, _ => none
  | .inr _ => none

/-- The probe and its evidence. -/
def probed (registered : RegisteredProvider) (name : String) (requested : Finset Capability) : Attempt ρ Unit := do
  setFailureCode .probeFailed
  let observed ← tryCatch (Body.perform (I := registryCalls ρ) (.probe name)) fun raised =>
    if raised.isException then raiseCoded .capabilityError "provider capability probe failed" else throw raised
  let .capabilities capabilities := observed
    | do
      setFailureCode .probeInvalid
      raiseCoded .capabilityError "provider capability probe returned invalid evidence"
  setFailureCode .localPolicyRejected
  Body.lift (registry.assertProviderBinding registered name)
  setFailureCode .probeCapabilityMismatch
  match capabilities.require registry.tables requested registered.providerId with
  | .ok () => pure ()
  | .error _ => raiseCoded .capabilityError "provider capability probe did not satisfy the authorized request"

/-- The provider's response under the checks the settlement rests on. -/
def generated (registered : RegisteredProvider) (name : String) (request : ModelRequest) :
    Attempt ρ (ModelResponse × TokenUsage) := do
  setFailureCode .generationFailed
  let reply ← tryCatch (Body.perform (I := registryCalls ρ) (.generate name request)) fun raised =>
    if raised.isLocalPolicy then do
      setFailureCode .localPolicyRejected
      raiseCoded .policyViolation "provider generation violated local policy"
    else if raised.isException then raiseCoded .providerResponseError "provider generation failed"
    else throw raised
  setFailureCode .responseInvalid
  let some (response, usage) := authorizedResponse registered request reply
    | raiseCoded .providerResponseError "provider returned an invalid authorized response"
  setFailureCode .localPolicyRejected
  Body.lift (registry.assertProviderBinding registered name)
  pure (response, usage)

/-- The settlement of the observed usage. -/
def settled (reservation : ρ) (response : ModelResponse) (usage : TokenUsage) : Attempt ρ ModelResponse := do
  setFailureCode .settlementRejected
  tryCatch (Body.perform (I := registryCalls ρ)
      (.settle reservation usage.inputTokens usage.cachedInputTokens usage.outputTokens)) fun raised =>
    if raised.isException then raiseCoded .policyViolation "model execution settlement was denied" else throw raised
  modify fun locals => { locals with settled := true }
  pure response

/-- The body of the `try` that holds the reservation. -/
def attempt (registered : RegisteredProvider) (name : String) (request : ModelRequest) (requested : Finset Capability)
    (reservation : ρ) : Attempt ρ ModelResponse := do
  registry.probed registered name requested
  let (response, usage) ← registry.generated registered name request
  settled reservation response usage

/-- The `finally` clause. -/
def release (reservation : ρ) (locals : Locals) : Call ρ Unit :=
  if locals.settled then pure ()
  else
    orRaise (.perform (I := registryCalls ρ) (.abandon reservation locals.failureCode.value))
      (.policyViolation "model execution failure accounting was unavailable")

/-- `ProviderRegistry.generate`. An `authorization` that is `none` stands for an object that is no
`ModelExecutionAuthorizationV1`. -/
def generate (authorization : Option ModelExecutionAuthorization) (request : ModelRequest) : Call ρ ModelResponse := do
  let some authorization := authorization
    | throw (.policyViolation "model generation requires a control-plane-issued ModelExecutionAuthorizationV1")
  .ofExcept (ensure (registry.hasGate = true)
    (.policyViolation "model generation requires an injected authorization gate"))
  let name := authorization.provider.registryName.value
  let some registered := registry.providers.lookup name
    | throw (.configurationError ("unknown model provider: " ++ name))
  registry.assertProviderBinding registered name
  let outboundRequestHash ← .ofExcept (registry.outboundRequestHash request)
  let call : ModelCall := ⟨registered.binding, request.maxInputTokens, request.maxOutputTokens, request.contextPackHash,
    outboundRequestHash⟩
  orRaise (.perform (I := registryCalls ρ) (.preflight authorization call))
    (.policyViolation "model execution authorization was denied")
  let requested := request.inferredCapabilities ∪ {.usageAccounting}
  .ofExcept (registered.declaredCapabilities.require registry.tables requested registered.providerId)
  let reservation ← orRaise (.perform (I := registryCalls ρ) (.reserve authorization call))
    (.policyViolation "model execution authorization was denied")
  Body.tryFinally (registry.attempt registered name request requested reservation) (release reservation)
    ⟨false, .localPolicyRejected⟩

end ProviderRegistry

/-! What a run exchanges -/

abbrev CallExchange (ρ : Type) := Exchange (registryCalls ρ) Raised

/-- The gate granted this reservation. -/
def Reserves (reservation : ρ) (x : CallExchange ρ) : Prop :=
  ∃ authorization call, x = ⟨.reserve authorization call, .ok reservation⟩

/-- The gate's settlement of this reservation succeeded. -/
def Settles (reservation : ρ) (x : CallExchange ρ) : Prop :=
  ∃ input cached output, x = ⟨.settle reservation input cached output, .ok ()⟩

/-- The reservation an attempt to abandon is about. -/
def RegistryOp.abandoned : RegistryOp ρ → Option ρ
  | .abandon reservation _ => some reservation
  | _ => none

/-- A call that presupposes a reservation: of the gate's `settle` and `abandon`, the probe or
the provider's `generate`. -/
def RegistryOp.presupposesReservation : RegistryOp ρ → Bool
  | .properties _ | .preflight .. | .reserve .. => false
  | .probe _ | .generate .. | .settle .. | .abandon .. => true

/-- What may precede a reservation. -/
def Prepares : CallExchange ρ → Prop
  | ⟨.properties _, _⟩ | ⟨.preflight .., _⟩ | ⟨.reserve .., .error _⟩ => True
  | _ => False

/-- What may stand between a reservation and its end. -/
def Works : CallExchange ρ → Prop
  | ⟨.properties _, _⟩ | ⟨.probe _, _⟩ | ⟨.generate .., _⟩ | ⟨.settle .., .error _⟩ => True
  | _ => False

/-- The three courses a run can take. -/
inductive Accounted : List (CallExchange ρ) → Except Raised ModelResponse → Prop where
  | unreserved {t : List (CallExchange ρ)} {error : Raised} (prepared : ∀ x ∈ t, Prepares x) :
    Accounted t (.error error)
  | settled {before during : List (CallExchange ρ)} {reservation : ρ} {reserve settle : CallExchange ρ}
    {response : ModelResponse} (prepared : ∀ x ∈ before, Prepares x) (reserves : Reserves reservation reserve)
    (worked : ∀ x ∈ during, Works x) (settles : Settles reservation settle) :
    Accounted (before ++ reserve :: (during ++ [settle])) (.ok response)
  | abandoned {before during : List (CallExchange ρ)} {reservation : ρ} {reserve abandon : CallExchange ρ}
    {error : Raised} (prepared : ∀ x ∈ before, Prepares x) (reserves : Reserves reservation reserve)
    (worked : ∀ x ∈ during, Works x) (abandons : abandon.op.abandoned = some reservation) :
    Accounted (before ++ reserve :: (during ++ [abandon])) (.error error)

/-- The operations an attempt issues before it settles. -/
def RegistryOp.isWork : RegistryOp ρ → Bool
  | .properties _ | .probe _ | .generate .. => true
  | _ => false

theorem works_of_isWork {x : CallExchange ρ} (h : x.op.isWork = true) : Works x := by
  obtain ⟨op, reply⟩ := x
  cases op <;> trivial

theorem issues_orRaise {α : Type} {ok : RegistryOp ρ → Prop} {call : Call ρ α} {error : Raised} (h : call.Issues ok) :
    (orRaise call error).Issues ok := by
  apply h.handle
  intro raised
  split <;> exact .throw _

theorem issues_readProviderBinding {ok : RegistryOp ρ → Prop} {name : String} (h : ok (.properties name)) :
    (ProviderRegistry.readProviderBinding name : Call ρ _).Issues ok := by
  apply Prog.Issues.bind (issues_orRaise (.perform h))
  intro read
  split
  · split
    · split
      · split
        · exact .pure _
        · exact .throw _
      · exact .throw _
    · exact .throw _
  · exact .throw _

section
variable (registry : ProviderRegistry) (registered : RegisteredProvider) (request : ModelRequest)

namespace ProviderRegistry

theorem issues_assertProviderBinding {ok : RegistryOp ρ → Prop} {name : String} (h : ok (.properties name)) :
    (registry.assertProviderBinding registered name : Call ρ Unit).Issues ok := by
  apply Prog.Issues.bind (issues_readProviderBinding h)
  rintro ⟨providerId, modelId, capabilities, endpointClass, configurationHash⟩
  apply Prog.Issues.bind (.ofExcept _)
  exact fun _ => .ofExcept _

end ProviderRegistry

/-! The body keeps its reservation open until it settles -/

/-- The body issues only work and leaves the reservation unsettled. -/
def Open {α : Type} (body : Attempt ρ α) : Prop :=
  Body.Keeps (fun op : RegistryOp ρ => op.isWork = true) (fun locals => locals.settled = false) body

theorem open_setFailureCode (code : ProviderFailureCode) : Open (setFailureCode code : Attempt ρ Unit) :=
  .modify fun _ h => h

theorem open_perform {op : RegistryOp ρ} (h : op.isWork = true) : Open (Body.perform (I := registryCalls ρ) op) :=
  .perform h

theorem open_raiseCoded {α : Type} (error : String → Raised) (message : String) :
    Open (raiseCoded error message : Attempt ρ α) :=
  .bind .get fun _ => .throw _

namespace ProviderRegistry

theorem open_assertProviderBinding (name : String) :
    Open (Body.lift (registry.assertProviderBinding registered name) : Attempt ρ Unit) :=
  .lift (registry.issues_assertProviderBinding registered rfl)

theorem open_probed (name : String) (requested : Finset Capability) :
    Open (registry.probed registered name requested : Attempt ρ Unit) := by
  apply Body.Keeps.bind (open_setFailureCode _)
  intro _
  apply Body.Keeps.bind
  · refine Body.Keeps.handle (open_perform rfl) ?_
    intro raised
    split
    · exact open_raiseCoded _ _
    · exact .throw _
  intro observed
  split
  · apply Body.Keeps.bind (open_setFailureCode _)
    intro _
    apply Body.Keeps.bind (registry.open_assertProviderBinding registered name)
    intro _
    apply Body.Keeps.bind (open_setFailureCode _)
    intro _
    split
    · exact .pure _
    · exact open_raiseCoded _ _
  · exact .bind (open_setFailureCode _) fun _ => open_raiseCoded _ _

theorem open_generated (name : String) : Open (registry.generated registered name request : Attempt ρ _) := by
  apply Body.Keeps.bind (open_setFailureCode _)
  intro _
  apply Body.Keeps.bind
  · refine Body.Keeps.handle (open_perform rfl) ?_
    intro raised
    split
    · exact .bind (open_setFailureCode _) fun _ => open_raiseCoded _ _
    · split
      · exact open_raiseCoded _ _
      · exact .throw _
  intro reply
  apply Body.Keeps.bind (open_setFailureCode _)
  intro _
  split
  · apply Body.Keeps.bind (open_setFailureCode _)
    intro _
    exact .bind (registry.open_assertProviderBinding registered name) fun _ => .pure _
  · exact open_raiseCoded _ _

end ProviderRegistry

/-! The attempt -/

/-- What the body has exchanged and leaves behind: the settlement as its last call and a
response, or no settlement and an error. -/
inductive Attempted (reservation : ρ) : List (CallExchange ρ) → Except Raised (Except Raised ModelResponse × Locals) → Prop where
  | settled {during : List (CallExchange ρ)} {settle : CallExchange ρ} {response : ModelResponse} {locals : Locals}
    (worked : ∀ x ∈ during, Works x) (settles : Settles reservation settle) (closed : locals.settled = true) :
    Attempted reservation (during ++ [settle]) (.ok (.ok response, locals))
  | failed {during : List (CallExchange ρ)} {error : Raised} {locals : Locals} (worked : ∀ x ∈ during, Works x)
    (unsettled : locals.settled = false) : Attempted reservation during (.ok (.error error, locals))

theorem Attempted.prepend {reservation : ρ} {work t : List (CallExchange ρ)} {r} (hwork : ∀ x ∈ work, Works x)
    (h : Attempted reservation t r) : Attempted reservation (work ++ t) r := by
  cases h with
  | settled worked settles closed =>
    rw [← List.append_assoc]
    exact .settled (List.forall_mem_append.mpr ⟨hwork, worked⟩) settles closed
  | failed worked unsettled => exact .failed (List.forall_mem_append.mpr ⟨hwork, worked⟩) unsettled

/-- Work before an attempt is part of the attempt. -/
theorem attempted_bind {α : Type} {reservation : ρ} {body : Attempt ρ α} {rest : α → Attempt ρ ModelResponse}
    (hbody : Open body)
    (hrest : ∀ a locals, locals.settled = false → ((rest a).run.run locals).Ensures (Attempted reservation))
    (locals : Locals) (hopen : locals.settled = false) :
    ((body >>= rest).run.run locals).Ensures (Attempted reservation) := by
  apply Prog.Ensures.bind (hbody locals hopen)
  · rintro t ⟨outcome, locals'⟩ ⟨ht, _, _, ⟨rfl⟩, hopen'⟩
    have hworked : ∀ x ∈ t, Works x := fun x hx => works_of_isWork (ht x hx)
    cases outcome with
    | error e =>
      rw [← t.append_nil] at hworked
      exact .failed hworked hopen'
    | ok a => exact (hrest a locals' hopen').mono fun t' r h => h.prepend hworked
  · rintro t e ⟨-, _, _, he, -⟩
    cases he

theorem attempted_settled (reservation : ρ) (response : ModelResponse) (usage : TokenUsage) (locals : Locals)
    (hopen : locals.settled = false) :
    ((ProviderRegistry.settled reservation response usage).run.run locals).Ensures (Attempted reservation) := by
  apply attempted_bind (open_setFailureCode _) _ locals hopen
  intro _ locals' hopen' reply
  cases reply with
  | ok =>
    have hworked : ∀ x ∈ ([] : List (CallExchange ρ)), Works x := List.forall_mem_nil _
    exact .settled hworked ⟨_, _, _, rfl⟩ rfl
  | error raised =>
    have hworked : ∀ x ∈ [(⟨.settle reservation usage.inputTokens usage.cachedInputTokens usage.outputTokens,
      .error raised⟩ : CallExchange ρ)], Works x := List.forall_mem_singleton.mpr trivial
    cases raised <;> exact .failed hworked hopen'

namespace ProviderRegistry

theorem attempt_ensures (name : String) (requested : Finset Capability) (reservation : ρ) (locals : Locals)
    (hopen : locals.settled = false) :
    ((registry.attempt registered name request requested reservation).run.run locals).Ensures (Attempted reservation) := by
  apply attempted_bind (registry.open_probed registered name requested) _ locals hopen
  intro _
  apply attempted_bind (registry.open_generated registered request name)
  exact fun generated => attempted_settled reservation generated.1 generated.2

/-- The `finally` clause attempts to abandon an unsettled reservation, and does nothing else. -/
theorem release_unsettled {reservation : ρ} {locals : Locals} (h : locals.settled = false) :
    (release reservation locals).Ensures fun t _ =>
      ∃ abandon : CallExchange ρ, t = [abandon] ∧ abandon.op.abandoned = some reservation := by
  unfold release
  rw [if_neg (by simp [h])]
  intro reply
  cases reply with
  | ok => exact ⟨_, rfl, rfl⟩
  | error raised => cases raised <;> exact ⟨_, rfl, rfl⟩

theorem release_settled {reservation : ρ} {locals : Locals} (h : locals.settled = true) :
    release reservation locals = pure () := if_pos h

/-- From the reservation on: one settlement and a response, or one attempt to abandon and an error. -/
theorem reserved_ensures (name : String) (requested : Finset Capability) (reservation : ρ) :
    (Body.tryFinally (registry.attempt registered name request requested reservation) (release reservation)
      ⟨false, .localPolicyRejected⟩).Ensures fun t r => ∃ during last, t = during ++ [last] ∧ (∀ x ∈ during, Works x) ∧
        ((∃ response, r = .ok response ∧ Settles reservation last) ∨
          ∃ error, r = .error error ∧ last.op.abandoned = some reservation) := by
  apply Prog.Ensures.bind (registry.attempt_ensures registered request name requested reservation _ rfl)
  · rintro t ⟨outcome, locals⟩ h
    cases h with
    | settled worked settles closed =>
      simp only [release_settled closed]
      exact ⟨_, _, List.append_nil _, worked, .inl ⟨_, rfl, settles⟩⟩
    | failed worked unsettled =>
      apply Prog.Ensures.bind (release_unsettled unsettled)
      · rintro t' _ ⟨abandon, rfl, habandon⟩
        exact ⟨t, abandon, by simp, worked, .inr ⟨_, rfl, habandon⟩⟩
      · rintro t' e ⟨abandon, rfl, habandon⟩
        exact ⟨t, abandon, rfl, worked, .inr ⟨_, rfl, habandon⟩⟩
  · rintro t e h
    cases h

end ProviderRegistry

/-! The whole run -/

/-- The operations that precede the reservation. -/
def RegistryOp.isPreparation : RegistryOp ρ → Bool
  | .properties _ | .preflight .. => true
  | _ => false

theorem prepares_of_isPreparation {x : CallExchange ρ} (h : x.op.isPreparation = true) : Prepares x := by
  obtain ⟨op, reply⟩ := x
  cases op <;> trivial

theorem Accounted.prepend {before t : List (CallExchange ρ)} {r : Except Raised ModelResponse}
    (hbefore : ∀ x ∈ before, Prepares x) (h : Accounted t r) : Accounted (before ++ t) r := by
  cases h with
  | unreserved prepared => exact .unreserved (List.forall_mem_append.mpr ⟨hbefore, prepared⟩)
  | settled prepared reserves worked settles =>
    rw [← List.append_assoc]
    exact .settled (List.forall_mem_append.mpr ⟨hbefore, prepared⟩) reserves worked settles
  | abandoned prepared reserves worked abandons =>
    rw [← List.append_assoc]
    exact .abandoned (List.forall_mem_append.mpr ⟨hbefore, prepared⟩) reserves worked abandons

theorem accounted_bind {α : Type} {call : Call ρ α} {rest : α → Call ρ ModelResponse}
    (hcall : call.Issues fun op => RegistryOp.isPreparation op = true) (hrest : ∀ a, (rest a).Ensures Accounted) :
    (call >>= rest).Ensures Accounted := by
  apply Prog.Ensures.bind hcall.ensures
  · intro t a ht
    exact (hrest a).mono fun t' r h => h.prepend fun x hx => prepares_of_isPreparation (ht x hx)
  · intro t e ht
    exact .unreserved fun x hx => prepares_of_isPreparation (ht x hx)

theorem accounted_throw (error : Raised) : (throw error : Call ρ ModelResponse).Ensures Accounted :=
  .unreserved (List.forall_mem_nil _)

theorem generate_ensures (authorization : Option ModelExecutionAuthorization) :
    (registry.generate authorization request : Call ρ ModelResponse).Ensures Accounted := by
  unfold ProviderRegistry.generate
  cases authorization with
  | none => exact accounted_throw _
  | some authorization =>
    apply accounted_bind (.ofExcept _)
    intro _
    dsimp only
    cases registry.providers.lookup authorization.provider.registryName.value with
    | none => exact accounted_throw _
    | some registered =>
      apply accounted_bind (registry.issues_assertProviderBinding registered rfl)
      intro _
      apply accounted_bind (.ofExcept _)
      intro outboundRequestHash
      apply accounted_bind (issues_orRaise (.perform rfl))
      intro _
      apply accounted_bind (.ofExcept _)
      intro _ reply
      cases reply with
      | error raised =>
        cases raised <;> exact .unreserved (List.forall_mem_singleton.mpr trivial)
      | ok reservation =>
        apply (registry.reserved_ensures registered request _ _ reservation).mono
        have hprepared : ∀ x ∈ ([] : List (CallExchange ρ)), Prepares x := List.forall_mem_nil _
        rintro t r ⟨during, last, rfl, hworked, ⟨response, rfl, hsettles⟩ | ⟨error, rfl, habandoned⟩⟩
        · exact .settled hprepared ⟨_, _, rfl⟩ hworked hsettles
        · exact .abandoned hprepared ⟨_, _, rfl⟩ hworked habandoned

end

/-! What the courses have in common -/

section
variable {x : CallExchange ρ} {reservation : ρ}

theorem Prepares.presupposes_nothing (h : Prepares x) : x.op.presupposesReservation = false := by
  obtain ⟨op, reply⟩ := x
  cases op <;> trivial

theorem Prepares.abandoned_eq_none (h : Prepares x) : x.op.abandoned = none := by
  obtain ⟨op, reply⟩ := x
  cases op <;> trivial

theorem Prepares.not_reserves (h : Prepares x) : ¬ Reserves reservation x := by
  rintro ⟨authorization, call, rfl⟩
  exact h

theorem Prepares.not_settles (h : Prepares x) : ¬ Settles reservation x := by
  rintro ⟨input, cached, output, rfl⟩
  exact h

theorem Works.abandoned_eq_none (h : Works x) : x.op.abandoned = none := by
  obtain ⟨op, reply⟩ := x
  cases op <;> trivial

theorem Works.not_reserves (h : Works x) : ¬ Reserves reservation x := by
  rintro ⟨authorization, call, rfl⟩
  exact h

theorem Works.not_settles (h : Works x) : ¬ Settles reservation x := by
  rintro ⟨input, cached, output, rfl⟩
  exact h

theorem Reserves.unique {other : ρ} (h : Reserves reservation x) (h' : Reserves other x) : reservation = other := by
  obtain ⟨_, _, rfl⟩ := h
  obtain ⟨_, _, he⟩ := h'
  cases he
  rfl

theorem Reserves.abandoned_eq_none (h : Reserves reservation x) : x.op.abandoned = none := by
  obtain ⟨_, _, rfl⟩ := h
  rfl

theorem Reserves.not_settles {other : ρ} (h : Reserves reservation x) : ¬ Settles other x := by
  obtain ⟨_, _, rfl⟩ := h
  rintro ⟨_, _, _, he⟩
  cases he

theorem Settles.abandoned_eq_none (h : Settles reservation x) : x.op.abandoned = none := by
  obtain ⟨_, _, _, rfl⟩ := h
  rfl

theorem filterMap_abandoned_eq_nil {t : List (CallExchange ρ)} (h : ∀ x ∈ t, x.op.abandoned = none) :
    t.filterMap (fun x => x.op.abandoned) = [] :=
  List.filterMap_eq_nil_iff.mpr h

/-- A prefix of a run without the reservation ends before it. -/
theorem mem_before_of_prefix {α : Type} {before tail shown rest : List α} {y z : α}
    (h : before ++ y :: tail = shown ++ rest) (hy : y ∉ shown) (hz : z ∈ shown) : z ∈ before := by
  obtain ⟨l, rfl, hl⟩ | ⟨l, rfl, -⟩ := List.append_eq_append_iff.mp h
  · cases l with
    | nil => simpa using hz
    | cons c l =>
      obtain ⟨rfl, -⟩ := List.cons.inj hl
      exact absurd (List.mem_append_right _ List.mem_cons_self) hy
  · exact List.mem_append_left _ hz

end

section
variable {t : List (CallExchange ρ)} {r : Except Raised ModelResponse}

theorem Accounted.response (h : Accounted t r) {response : ModelResponse} (hr : r = .ok response) :
    t.filterMap (fun x => x.op.abandoned) = [] ∧
      ∃ reservation, (∃ x ∈ t, Reserves reservation x) ∧ ∃ x ∈ t, Settles reservation x := by
  cases h with
  | unreserved prepared => cases hr
  | abandoned prepared reserves worked abandons => cases hr
  | @settled before during reservation reserve settle _ prepared reserves worked settles =>
    constructor
    · apply filterMap_abandoned_eq_nil
      intro x hx
      simp only [List.mem_append, List.mem_cons, List.not_mem_nil, or_false] at hx
      obtain hx | rfl | hx | rfl := hx
      · exact (prepared x hx).abandoned_eq_none
      · exact reserves.abandoned_eq_none
      · exact (worked x hx).abandoned_eq_none
      · exact settles.abandoned_eq_none
    · exact ⟨reservation, ⟨reserve, by simp, reserves⟩, settle, by simp, settles⟩

theorem Accounted.error (h : Accounted t r) {reservation : ρ} (hreserved : ∃ x ∈ t, Reserves reservation x)
    {error : Raised} (hr : r = .error error) :
    t.filterMap (fun x => x.op.abandoned) = [reservation] ∧ ∀ x ∈ t, ∀ other, ¬ Settles other x := by
  obtain ⟨y, hy, hreserves⟩ := hreserved
  cases h with
  | unreserved prepared => exact absurd hreserves (prepared y hy).not_reserves
  | settled prepared reserves worked settles => cases hr
  | @abandoned before during reservation' reserve abandon _ prepared reserves worked abandons =>
    have hsame : reservation' = reservation := by
      simp only [List.mem_append, List.mem_cons, List.not_mem_nil, or_false] at hy
      obtain hy | rfl | hy | rfl := hy
      · exact absurd hreserves (prepared y hy).not_reserves
      · exact reserves.unique hreserves
      · exact absurd hreserves (worked y hy).not_reserves
      · rw [hreserves.abandoned_eq_none] at abandons
        cases abandons
    subst hsame
    constructor
    · have hbefore := filterMap_abandoned_eq_nil fun x hx => (prepared x hx).abandoned_eq_none
      have hduring := filterMap_abandoned_eq_nil fun x hx => (worked x hx).abandoned_eq_none
      simp only [List.filterMap_append, List.filterMap_cons, List.filterMap_nil, hbefore, hduring,
        reserves.abandoned_eq_none, abandons, List.nil_append]
    · intro x hx other hsettles
      simp only [List.mem_append, List.mem_cons, List.not_mem_nil, or_false] at hx
      obtain hx | rfl | hx | rfl := hx
      · exact (prepared x hx).not_settles hsettles
      · exact reserves.not_settles hsettles
      · exact (worked x hx).not_settles hsettles
      · rw [hsettles.abandoned_eq_none] at abandons
        cases abandons

theorem Accounted.unreserved_prefix (h : Accounted t r) {before after : List (CallExchange ρ)} (ht : t = before ++ after)
    (hunreserved : ∀ x ∈ before, ∀ reservation, ¬ Reserves reservation x) :
    ∀ x ∈ before, x.op.presupposesReservation = false := by
  intro x hx
  cases h with
  | unreserved prepared =>
    subst ht
    exact (prepared x (List.mem_append_left _ hx)).presupposes_nothing
  | settled prepared reserves worked settles =>
    have hprepared := mem_before_of_prefix ht (fun hmem => hunreserved _ hmem _ reserves) hx
    exact (prepared x hprepared).presupposes_nothing
  | abandoned prepared reserves worked abandons =>
    have hprepared := mem_before_of_prefix ht (fun hmem => hunreserved _ hmem _ reserves) hx
    exact (prepared x hprepared).presupposes_nothing

end

/-- A response means that the gate settled the reservation it granted. Any other run with a
reservation attempts once to abandon it and settles nothing; before a reservation nothing is
called that presupposes one. -/
theorem generate_ends_reservation (registry : ProviderRegistry) (authorization : Option ModelExecutionAuthorization)
    (request : ModelRequest) (environment : Environment (registryCalls ρ) Raised) :
    let run := (registry.generate authorization request).against environment []
    (∀ response, run.2 = .ok response → run.1.filterMap (fun x => x.op.abandoned) = [] ∧
      ∃ reservation, (∃ x ∈ run.1, Reserves reservation x) ∧ ∃ x ∈ run.1, Settles reservation x) ∧
    (∀ reservation, (∃ x ∈ run.1, Reserves reservation x) → ∀ error, run.2 = .error error →
      run.1.filterMap (fun x => x.op.abandoned) = [reservation] ∧ ∀ x ∈ run.1, ∀ other, ¬ Settles other x) ∧
    ∀ before after, run.1 = before ++ after → (∀ x ∈ before, ∀ reservation, ¬ Reserves reservation x) →
      ∀ x ∈ before, x.op.presupposesReservation = false := by
  intro run
  have haccounted : Accounted run.1 run.2 := (generate_ensures registry request authorization).against environment []
  refine ⟨?_, ?_, ?_⟩
  · exact fun response hr => haccounted.response hr
  · exact fun reservation hreserved error hr => haccounted.error hreserved hr
  · exact fun before after ht hunreserved => haccounted.unreserved_prefix ht hunreserved

/-! A provider that answers, and one whose generation fails -/

def sampleProvider : RegisteredProvider where
  providerId := PyText.of "codex-cli"
  modelId := PyText.of "gpt"
  modelRevision := "1"
  endpointClass := .localEndpoint
  configurationHash := ControlPlane.sampleDigest
  binding := ControlPlane.hourCapability.provider
  declaredCapabilities := ⟨{.textGeneration, .usageAccounting}⟩

def sampleRegistry : ProviderRegistry where
  providers := [(ControlPlane.hourCapability.provider.registryName.value, sampleProvider)]
  hasGate := true
  tables := ⟨id, fun _ => "codex-cli"⟩
  requestDigest _ := some ControlPlane.sampleDigest

def sampleModelRequest : ModelRequest where
  prompt := "prove it"
  systemPrompt := none
  maxInputTokens := 10
  maxOutputTokens := 10
  reasoningEffort := none
  tools := []
  requiredCapabilities := ∅
  workingDirectory := none
  contextPackHash := none
  prompt_nonblank := by decide
  limits_positive := by decide
  effort_valid := nofun
  directory_absolute := nofun

def sampleResponse : ModelResponse :=
  ⟨.str (PyText.of "codex-cli"), .str (PyText.of "gpt"), .str (PyText.of "done"), .none, .toolCalls [], .usage ⟨3, 2, 0⟩⟩

/-- The gate admits everything, the provider is as it was registered, and its generation ends as given. -/
def answering (generated : Except Raised GenerateReply) : Environment (registryCalls Unit) Raised := fun _ op =>
  match op with
  | .properties _ => .ok ⟨.str (PyText.of "codex-cli"), .str (PyText.of "gpt"), .endpointClass .localEndpoint,
      .digest "config" ControlPlane.sampleDigest, .capabilities ⟨{.textGeneration, .usageAccounting}⟩⟩
  | .probe _ => .ok (.capabilities ⟨{.textGeneration, .usageAccounting}⟩)
  | .generate .. => generated
  | .preflight .. | .reserve .. | .settle .. | .abandon .. => .ok ()

/-- The run of a call whose generation ends as given. -/
abbrev runOf (generated : Except Raised GenerateReply) : List (CallExchange Unit) × Except Raised ModelResponse :=
  (sampleRegistry.generate (some ControlPlane.hourCapability) sampleModelRequest).against (answering generated) []

abbrev answeredRun : List (CallExchange Unit) × Except Raised ModelResponse := runOf (.ok (.inl sampleResponse))

abbrev failedRun : List (CallExchange Unit) × Except Raised ModelResponse := runOf (.error (.otherException "OSError"))

theorem answeredRun_returns : answeredRun.2.toOption.isSome = true := by decide +kernel

theorem failedRun_raises : failedRun.2.toOption.isSome = false ∧
    failedRun.1.any (fun x => match x with
      | ⟨.reserve .., .ok _⟩ => true
      | _ => false) = true := by decide +kernel

/-- A generation that answers ends in a settlement, and one that fails in one attempt to abandon. -/
theorem generate_ends_reservation_sample :
    (∃ response, answeredRun.2 = .ok response ∧ ∃ x ∈ answeredRun.1, Settles () x) ∧
      ∃ error, failedRun.2 = .error error ∧ failedRun.1.filterMap (fun x => x.op.abandoned) = [()] := by
  constructor
  · have hends := generate_ends_reservation sampleRegistry (some ControlPlane.hourCapability) sampleModelRequest
      (answering (.ok (.inl sampleResponse)))
    have hreturns := answeredRun_returns
    cases hr : answeredRun.2 with
    | error e =>
      rw [hr] at hreturns
      cases hreturns
    | ok response =>
      obtain ⟨-, reservation, -, x, hx, hsettles⟩ := hends.1 response hr
      exact ⟨response, rfl, x, hx, hsettles⟩
  · have hends := generate_ends_reservation sampleRegistry (some ControlPlane.hourCapability) sampleModelRequest
      (answering (.error (.otherException "OSError")))
    obtain ⟨hfails, hany⟩ := failedRun_raises
    cases hr : failedRun.2 with
    | ok response =>
      rw [hr] at hfails
      cases hfails
    | error error =>
      obtain ⟨x, hx, hmatch⟩ := List.any_eq_true.mp hany
      have hreserves : Reserves () x := by
        split at hmatch
        · exact ⟨_, _, rfl⟩
        · cases hmatch
      exact ⟨error, rfl, (hends.2.1 () ⟨x, hx, hreserves⟩ error hr).1⟩

end Autolean.Prover.Providers
