import Autolean.Prover.Providers
import Autolean.Text.JsonLocality
import Autolean.Text.SplitLines

/-! The Codex CLI provider: a stream of JSON events, one a line, read back into one response. -/
namespace Autolean.Prover.Providers
open Text
open Machine Machine.Raising
open Contracts (isSpace PyFloat)

/-! The process -/

structure CodexCliSettings where
  modelId : PyText
  binary : PyText
  sandbox : PyText
  defaultReasoningEffort : Option String
  timeoutSeconds : PyFloat
  maxOutputBytes : Int

/-- What is asked of the execution harness. -/
structure CodexProcessRequest where
  argv : List PyText
  cwd : String
  stdin : String
  timeoutSeconds : PyFloat
  maxOutputBytes : Int

/-- What it answers; the output is decoded text. -/
structure ProcessResult where
  returncode : Option Int
  stdout : List Char
  timedOut : Bool
  outputTruncated : Bool

/-! One event -/

/-- `json.loads`; a float is never looked at. -/
def codexHooks : JsonHooks Unit Unit where
  malformed := ()
  pairs d := .ok (dictOf d)
  constant _ := .ok (.float ())
  float _ := ()

/-- `value == text`. -/
def isExactly (value : Option (JsonValue Unit)) (text : String) : Bool :=
  match value with
  | some (.str s) => s = PyText.of text
  | _ => false

/-- `value in {...}`: a list or a dict has no hash. -/
def isOneOf (value : Option (JsonValue Unit)) (texts : List String) : Except Raised Bool :=
  match value with
  | some (.list _) | some (.dict _) => .error (.otherException "TypeError")
  | _ => .ok (texts.any (isExactly value))

def textOf : Option (JsonValue Unit) → Option PyText
  | some (.str s) => some s
  | _ => none

/-- The text of an agent message, in either of its shapes. -/
def agentMessage (event : JsonDict Unit) : Option PyText :=
  if isExactly (event.get "type") "item.completed" then
    match event.get "item" with
    | some (.dict item) =>
        if isExactly (JsonDict.get item "type") "agent_message" then textOf (JsonDict.get item "text") else none
    | _ => none
  else if isExactly (event.get "type") "message" || isExactly (event.get "type") "agent_message" then
    textOf (event.get "text")
  else none

def eventUsage (event : JsonDict Unit) : Option (JsonDict Unit) :=
  match event.get "usage" with
  | some (.dict usage) => some usage
  | _ => none

/-- `read`: the first of the keys with a value. -/
def readCount (value : JsonDict Unit) : List String → Except Raised Int
  | [] => .ok 0
  | key :: keys =>
    match value.get key with
    | none | some .null => readCount value keys
    | some (.int n) =>
      if 0 ≤ n then .ok n
      else .error (.providerResponseError ("Codex usage field '" ++ key ++ "' must be a non-negative integer"))
    | some _ => .error (.providerResponseError ("Codex usage field '" ++ key ++ "' must be a non-negative integer"))

/-- `_parse_usage`. -/
def parseUsage (value : JsonDict Unit) : Except Raised TokenUsage := do
  let inputTokens ← readCount value ["input_tokens", "inputTokens"]
  let outputTokens ← readCount value ["output_tokens", "outputTokens"]
  let cachedInputTokens ← readCount value ["cached_input_tokens", "cachedInputTokens"]
  tokenUsage inputTokens outputTokens cachedInputTokens

/-- The local variables of `_parse_jsonl`. -/
structure CodexStream where
  textParts : List PyText
  usage : TokenUsage
  responseId : Option PyText

def CodexStream.start : CodexStream := ⟨[], ⟨0, 0, 0⟩, none⟩

/-- The usage after an event: its own, or the one seen before it. -/
def CodexStream.readUsage (s : CodexStream) (event : JsonDict Unit) : Except Raised TokenUsage :=
  match eventUsage event with
  | some usage => parseUsage usage
  | none => .ok s.usage

def CodexStream.read (s : CodexStream) (event : JsonDict Unit) : Except Raised CodexStream := do
  let starts ← isOneOf (event.get "type") ["thread.started", "session_start"]
  let candidate := textOf ((event.get "thread_id").orElse fun _ => event.get "session_id")
  let usage ← s.readUsage event
  pure ⟨s.textParts ++ (agentMessage event).toList, usage,
    if starts then candidate.orElse fun _ => s.responseId else s.responseId⟩

/-! The stream -/

/-- The loop over the lines. -/
def parseLines : Nat → List (List Char) → CodexStream → Except Raised CodexStream
  | _, [], s => .ok s
  | lineNumber, line :: lines, s =>
    if line.all isSpace then parseLines (lineNumber + 1) lines s
    else
      match codexHooks.loads line with
      | .error () => .error (.providerResponseError ("Codex CLI emitted invalid JSON on line " ++ toString lineNumber))
      | .ok (.dict event) => s.read event >>= parseLines (lineNumber + 1) lines
      | .ok _ =>
        .error (.providerResponseError ("Codex CLI event on line " ++ toString lineNumber ++ " is not an object"))

/-- An optional text as the response holds it. -/
def optionalText : Option PyText → PyObject
  | some s => .str s
  | none => .none

namespace CodexCliSettings
variable (settings : CodexCliSettings)

/-- `_parse_jsonl`. -/
def parseJsonl (output : List Char) : Except Raised ModelResponse := do
  let s ← parseLines 1 (splitlines output) .start
  ensure (s.textParts ≠ []) (.providerResponseError "Codex CLI stream contained no final agent message")
  pure {
    providerId := .str (PyText.of "codex-cli")
    modelId := .str settings.modelId
    text := .str s.textParts.flatten
    responseId := optionalText s.responseId
    toolCalls := .toolCalls []
    usage := .usage s.usage }

def capabilities : ProviderCapabilities := ⟨{.textGeneration, .usageAccounting, .reasoningEffort, .localExecution}⟩

def buildArgv (request : ModelRequest) : List PyText :=
  let effort := request.reasoningEffort.orElse fun _ => settings.defaultReasoningEffort
  let argv := [settings.binary] ++
    ["exec", "--json", "--ephemeral", "--skip-git-repo-check", "--sandbox"].map PyText.of ++
    [settings.sandbox, PyText.of "-m", settings.modelId]
  let configured := match effort with
    | some effort => [PyText.of "-c", PyText.of ("model_reasoning_effort=\"" ++ effort ++ "\"")]
    | none => []
  argv ++ configured ++ [PyText.of "-"]

def stdinPrompt (request : ModelRequest) : String :=
  match request.systemPrompt with
  | some systemPrompt => if systemPrompt = "" then request.prompt else systemPrompt ++ "\n\n" ++ request.prompt
  | none => request.prompt

/-- `str(returncode)`. -/
def returncodeText : Option Int → String
  | some code => toString code
  | none => "None"

/-- `CodexCliProvider.generate`, with the harness that runs the process. -/
def generate (tables : TextTables) (execute : CodexProcessRequest → Except Raised ProcessResult)
    (request : ModelRequest) : Except Raised ModelResponse := do
  capabilities.require tables request.inferredCapabilities (PyText.of "codex-cli")
  match request.workingDirectory with
  | none => .error (.configurationError "Codex CLI requests require a working_directory")
  | some directory =>
    let result ← execute ⟨settings.buildArgv request, directory, stdinPrompt request, settings.timeoutSeconds,
      settings.maxOutputBytes⟩
    ensure (result.timedOut = false) (.providerResponseError "Codex CLI timed out")
    ensure (result.outputTruncated = false) (.providerResponseError "Codex CLI output exceeded the configured limit")
    ensure (result.returncode = some 0)
      (.providerResponseError ("Codex CLI exited with " ++ returncodeText result.returncode))
    settings.parseJsonl result.stdout

/-- A process that ended well is answered by what its output reads as. -/
theorem generate_eq_parseJsonl {tables : TextTables} {execute : CodexProcessRequest → Except Raised ProcessResult}
    {request : ModelRequest} {directory : String} {result : ProcessResult}
    (hcapable : request.inferredCapabilities ⊆ capabilities.values)
    (hdirectory : request.workingDirectory = some directory)
    (hresult : execute ⟨settings.buildArgv request, directory, stdinPrompt request, settings.timeoutSeconds,
      settings.maxOutputBytes⟩ = .ok result)
    (htimely : result.timedOut = false) (hwhole : result.outputTruncated = false) (hcode : result.returncode = some 0) :
    settings.generate tables execute request = settings.parseJsonl result.stdout := by
  have hrequired : capabilities.require tables request.inferredCapabilities (PyText.of "codex-cli") = .ok () :=
    ensure_of _ (Finset.sdiff_eq_empty_iff_subset.mpr hcapable)
  simp only [generate, hrequired, ok_bind, hdirectory, hresult, ensure_of _ htimely, ensure_of _ hwhole,
    ensure_of _ hcode]

end CodexCliSettings

end Autolean.Prover.Providers
