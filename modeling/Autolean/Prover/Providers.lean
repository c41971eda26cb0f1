import Autolean.Contracts.Authorization
import Autolean.Machine.Raising
import Autolean.Text.Trimming

/-! What the Prover knows of a model provider: its identity and capabilities, and the
requests and responses it exchanges. -/
namespace Autolean.Prover.Providers
open Contracts Machine
open Text (PyText CodePoint)

/-- What a call can raise: the Prover's own classes, another `Exception`, or a
`BaseException` that no `except Exception` catches. -/
inductive Raised where
  | capabilityError (message : String)
  | configurationError (message : String)
  | policyViolation (message : String)
  | providerResponseError (message : String)
  | otherException (name : String)
  | baseException (name : String)
  deriving DecidableEq

/-- `except Exception` catches it. -/
def Raised.isException : Raised → Bool
  | baseException _ => false
  | _ => true

/-- `except (CapabilityError, ConfigurationError, PolicyViolation)` catches it. -/
def Raised.isLocalPolicy : Raised → Bool
  | capabilityError _ | configurationError _ | policyViolation _ => true
  | _ => false

/-- Unicode normalization and the printed form of a text, from the language's tables. -/
structure TextTables where
  /-- `unicodedata.normalize("NFKC", value).casefold()`. -/
  normalized : PyText → PyText
  /-- `repr(value)`. -/
  quoted : PyText → String

def forbiddenTerms : List String := ["anthropic", "claude"]

/-- `term in normalized`. -/
def occursIn (term : String) (text : PyText) : Bool := decide (PyText.of term <:+: text)

/-- `_validate_identifier` of a `str`. A text with a space at one of its ends has one in it. -/
def TextTables.validateIdentifier (tables : TextTables) (value : PyText) (label : String) : Except Raised Unit := do
  ensure (value ≠ []) (.configurationError (label ++ " must be a non-empty string"))
  ensure (value.any CodePoint.isSpace = false) (.configurationError (label ++ " must not contain whitespace"))
  ensure (value.any (fun c => c.val < 32 || c.val = 127) = false)
    (.configurationError (label ++ " must not contain control characters"))
  ensure (forbiddenTerms.any (occursIn · (tables.normalized value)) = false)
    (.policyViolation "Anthropic and Claude identifiers are not permitted in AutoLean")

def TextTables.validateProviderIdentity (tables : TextTables) (providerId modelId : PyText) : Except Raised Unit := do
  tables.validateIdentifier providerId "provider_id"
  tables.validateIdentifier modelId "model_id"

inductive Capability where
  | textGeneration
  | usageAccounting
  | reasoningEffort
  | toolCalling
  | streaming
  | localExecution
  | customEndpoint
  deriving DecidableEq

def Capability.value : Capability → String
  | textGeneration => "text_generation"
  | usageAccounting => "usage_accounting"
  | reasoningEffort => "reasoning_effort"
  | toolCalling => "tool_calling"
  | streaming => "streaming"
  | localExecution => "local_execution"
  | customEndpoint => "custom_endpoint"

/-- The capabilities in the order of their values. -/
def Capability.sorted : List Capability :=
  [customEndpoint, localExecution, reasoningEffort, streaming, textGeneration, toolCalling, usageAccounting]

structure ProviderCapabilities where
  values : Finset Capability
  deriving DecidableEq

def ProviderCapabilities.require (capabilities : ProviderCapabilities) (tables : TextTables)
    (required : Finset Capability) (providerId : PyText) : Except Raised Unit :=
  let missing := required \ capabilities.values
  let names := ", ".intercalate ((Capability.sorted.filter (· ∈ missing)).map Capability.value)
  ensure (missing = ∅)
    (.capabilityError ("provider " ++ tables.quoted providerId ++ " lacks required capabilities: " ++ names))

structure ToolSpec where
  name : String
  description : String
  parameters : JsonObject
  strict : Bool

/-- Token counts as a provider reports them. -/
structure TokenUsage where
  inputTokens : Int
  outputTokens : Int
  cachedInputTokens : Int
  deriving DecidableEq

/-- The checks of its constructor. -/
def tokenUsage (inputTokens outputTokens cachedInputTokens : Int) : Except Raised TokenUsage := do
  ensure (0 ≤ inputTokens ∧ 0 ≤ outputTokens ∧ 0 ≤ cachedInputTokens)
    (.configurationError "token usage must contain non-negative integer values")
  ensure (cachedInputTokens ≤ inputTokens) (.configurationError "cached_input_tokens cannot exceed input_tokens")
  pure ⟨inputTokens, outputTokens, cachedInputTokens⟩

/-- `^[a-z][a-z0-9_-]{0,63}$`, matched in full. -/
def IsReasoningEffort (s : String) : Prop :=
  Text.Headed (fun c => 'a' ≤ c && c ≤ 'z') (fun c => ('a' ≤ c && c ≤ 'z') || c.isDigit || c = '_' || c = '-') 64 s.toList

structure ModelRequest where
  prompt : String
  systemPrompt : Option String
  maxInputTokens : Int
  maxOutputTokens : Int
  reasoningEffort : Option String
  tools : List ToolSpec
  requiredCapabilities : Finset Capability
  workingDirectory : Option String
  contextPackHash : Option Digest
  prompt_nonblank : ¬ Blank prompt
  limits_positive : 0 < maxInputTokens ∧ 0 < maxOutputTokens
  effort_valid : ∀ effort ∈ reasoningEffort, IsReasoningEffort effort
  directory_absolute : ∀ directory ∈ workingDirectory, directory.toList.head? = some '/'

def ModelRequest.inferredCapabilities (request : ModelRequest) : Finset Capability :=
  request.requiredCapabilities ∪ {.textGeneration} ∪
    (if request.reasoningEffort.isSome then {.reasoningEffort} else ∅) ∪
    (if request.tools ≠ [] then {.toolCalling} else ∅) ∪
    (if request.workingDirectory.isSome then {.localExecution} else ∅)

structure ToolCall where
  callId : PyText
  name : PyText
  argumentsJson : PyText
  deriving DecidableEq

/-- A value that code outside the Prover hands over, as far as its class is looked at. -/
inductive PyObject where
  | none
  | str (value : PyText)
  | capabilities (value : ProviderCapabilities)
  | endpointClass (value : EndpointClass)
  | digest (kind : String) (value : Digest)
  | usage (value : TokenUsage)
  | toolCalls (calls : List ToolCall)
  | other (identity : Nat)
  deriving DecidableEq

/-- No field of a response is checked when it is built. -/
structure ModelResponse where
  providerId : PyObject
  modelId : PyObject
  text : PyObject
  responseId : PyObject
  toolCalls : PyObject
  usage : PyObject

end Autolean.Prover.Providers
