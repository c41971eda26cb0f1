import Autolean.Builder.Experience

/-! Loading a context pack from its bytes: the JSON is read, compared with its canonical
text, and rebuilt field by field, and what was rebuilt must render to the same bytes. -/
namespace Autolean.Builder.Experience
open Text Machine
variable {F : Type} (py : Python F)

def mapping (value : Option (JsonValue F)) (label : String) : Raises (JsonDict F) :=
  match value with
  | some (.dict d) => .ok d
  | _ => .error ⟨label ++ " must be a string-keyed mapping"⟩

def list (value : Option (JsonValue F)) (label : String) : Raises (List (JsonValue F)) :=
  match value with
  | some (.list items) => .ok items
  | _ => .error ⟨label ++ " must be a list"⟩

def string (value : Option (JsonValue F)) (label : String) : Raises PyText :=
  match value with
  | some (.str s) => .ok s
  | _ => .error ⟨label ++ " must be a string"⟩

def optionalString (value : Option (JsonValue F)) (label : String) : Raises (Option PyText) :=
  match value with
  | none | some .null => .ok none
  | _ => (string value label).map some

def integer (value : Option (JsonValue F)) (label : String) : Raises Int :=
  match value with
  | some (.int n) => .ok n
  | _ => .error ⟨label ++ " must be an integer"⟩

def stringTuple (value : Option (JsonValue F)) (label : String) : Raises (List PyText) := do
  let items ← list value label
  items.mapM fun item => string (some item) label

/-- The member of an enumeration with the value; its error is `ValueError`. -/
def enumMember {E : Type} (all : List E) (value : E → PyText) (s : PyText) : Raises E :=
  match all.find? fun e => value e = s with
  | some e => .ok e
  | none => .error ⟨"ValueError"⟩

/-- `except ValueError`, which `ExperienceError` is one of. -/
def rephrase {α : Type} (message : String) : Raises α → Raises α
  | .ok a => .ok a
  | .error _ => .error ⟨message⟩

def rejectDuplicatePairs (d : JsonDict F) : Raises (JsonDict F) := do
  ensure d.keys.Nodup ⟨"experience ContextPack JSON contains a duplicate key"⟩
  return d

def rejectJsonConstant (value : List Char) : Raises (JsonValue F) :=
  .error ⟨"experience ContextPack JSON contains invalid constant '" ++ String.ofList value ++ "'"⟩

def notJson : ExperienceError := ⟨"experience ContextPack is not valid UTF-8 JSON"⟩

def hooks : JsonHooks F ExperienceError where
  malformed := notJson
  pairs := rejectDuplicatePairs
  constant := rejectJsonConstant
  float := py.readFloat

/-- `json.loads(content.decode("utf-8"), ...)`. -/
def parse (content : ByteArray) : Raises (JsonValue F) :=
  match String.fromUTF8? content with
  | some decoded => (hooks py).loads decoded.toList
  | none => .error notJson

/-- `value == text`. -/
def isText : Option (JsonValue F) → PyText → Bool
  | some (.str s), text => s = text
  | _, _ => false

/-- `value == False`, which zeros are too. -/
def isFalse : Option (JsonValue F) → Bool
  | some (.bool b) => !b
  | some (.int n) => n = 0
  | some (.float x) => py.floatIsZero x
  | _ => false

/-- `value == expected_handling`. -/
def isHandling : Option (JsonValue F) → Bool
  | some (.dict d) =>
    d.length = 3 && isFalse py (JsonDict.get d "follow_embedded_instructions") &&
      isFalse py (JsonDict.get d "may_change_frozen_statement") &&
      isText (JsonDict.get d "text_classification") (.of "quoted-untrusted-experience")
  | _ => false

def queryFromPayload (value : JsonDict F) : Raises ExperienceQuery := do
  let choice ← rephrase "experience query contains an unsupported enum value" do
    let endpoint ← enumMember ExperienceEndpoint.all ExperienceEndpoint.value (← string (value.get "endpoint") "query endpoint")
    let outcomes ← (← stringTuple (value.get "outcomes") "query outcomes").mapM
      (enumMember ExperienceOutcome.all ExperienceOutcome.value)
    return (endpoint, outcomes)
  let role ← string (value.get "role") "query role"
  let domainPath ← stringTuple (value.get "domain_path") "query domain path"
  let graphFrontier ← stringTuple (value.get "graph_frontier") "query graph frontier"
  let rightsScopeId ← string (value.get "rights_scope_id") "query rights scope"
  let maxItems ← integer (value.get "max_items") "query max_items"
  let maxTokens ← integer (value.get "max_tokens") "query max_tokens"
  Checked.make QueryFields.postInit
    { role, domainPath, graphFrontier, rightsScopeId, endpoint := choice.1, outcomes := choice.2, maxItems, maxTokens }

def evidenceFromPayload (item : JsonValue F) : Raises (FailureEvidence py) := do
  let value ← mapping (some item) "failure evidence item"
  let kind ← rephrase "failure evidence kind is unsupported" do
    enumMember FailureEvidenceKind.all FailureEvidenceKind.value (← string (value.get "kind") "failure evidence kind")
  let evidenceId ← string (value.get "evidence_id") "failure evidence ID"
  let evidenceVersion ← string (value.get "evidence_version") "failure evidence version"
  let artifactSha256 ← string (value.get "artifact_sha256") "failure evidence digest"
  let summary ← string (value.get "summary") "failure evidence summary"
  Checked.make (EvidenceFields.postInit py) { kind, evidenceId, evidenceVersion, artifactSha256, summary }

def sourceFromPayload (value : JsonDict F) : Raises ExperienceSource := do
  let sourceId ← string (value.get "source_id") "source ID"
  let sourceVersion ← string (value.get "source_version") "source version"
  let sourceSha256 ← string (value.get "source_sha256") "source hash"
  let spanIds ← stringTuple (value.get "span_ids") "source spans"
  Checked.make SourceFields.postInit { sourceId, sourceVersion, sourceSha256, spanIds }

def applicabilityFromPayload (value : JsonDict F) : Raises (ExperienceApplicability py) := do
  let roles ← stringTuple (value.get "roles") "experience roles"
  let domainPath ← stringTuple (value.get "domain_path") "experience domain"
  let requiredGraphFrontier ← stringTuple (value.get "required_graph_frontier") "required graph frontier"
  let conditions ← stringTuple (value.get "conditions") "applicability conditions"
  Checked.make (ApplicabilityFields.postInit py) { roles, domainPath, requiredGraphFrontier, conditions }

def rightsFromPayload (value : JsonDict F) (allowedEndpoints : List ExperienceEndpoint) : Raises RightsEgressPolicy := do
  let rightsScopeId ← string (value.get "rights_scope_id") "rights scope"
  let policyVersion ← string (value.get "policy_version") "rights policy version"
  let externalReviewRef ← optionalString (value.get "external_review_ref") "external review reference"
  Checked.make RightsFields.postInit { rightsScopeId, policyVersion, allowedEndpoints, externalReviewRef }

def recordFromPayload (value : JsonDict F) : Raises (ExperienceRecord py) := do
  ensure (isText (value.get "schema_version") (.of "autolean.builder-experience.v1"))
    ⟨"experience record schema is unsupported"⟩
  let sourceValue ← mapping (value.get "source") "experience source"
  let applicabilityValue ← mapping (value.get "applicability") "experience applicability"
  let rightsValue ← mapping (value.get "rights") "experience rights"
  let choice ← rephrase "experience record contains an unsupported enum value" do
    let outcome ← enumMember ExperienceOutcome.all ExperienceOutcome.value (← string (value.get "outcome") "experience outcome")
    let endpoints ← (← stringTuple (rightsValue.get "allowed_endpoints") "allowed endpoints").mapM
      (enumMember ExperienceEndpoint.all ExperienceEndpoint.value)
    return (outcome, endpoints)
  let failureEvidence ← (← list (value.get "failure_evidence") "failure evidence").mapM (evidenceFromPayload py)
  let source ← sourceFromPayload sourceValue
  let recordVersion ← string (value.get "record_version") "record version"
  let authorRole ← string (value.get "author_role") "author role"
  let applicability ← applicabilityFromPayload py applicabilityValue
  let rights ← rightsFromPayload rightsValue choice.2
  let title ← string (value.get "title") "experience title"
  let observation ← string (value.get "observation") "experience observation"
  Checked.make RecordFields.postInit
    { source, recordVersion, authorRole, applicability, rights, outcome := choice.1, title, observation, failureEvidence }

def recordFromEnvelope (item : JsonValue F) : Raises (ExperienceRecord py) := do
  let envelope ← mapping (some item) "record envelope"
  let record ← recordFromPayload py (← mapping (envelope.get "record") "record")
  ensure (isText (envelope.get "content_sha256") record.value.contentSha256) ⟨"experience record content hash does not match"⟩
  return record

/-- `ExperienceContextPack.from_bytes`. -/
def fromBytes (content : ByteArray) : Raises (ExperienceContextPack py) := do
  let root ← mapping (some (← parse py content)) "ContextPack"
  ensure (canonicalJson py (.dict root) = content) ⟨"experience ContextPack is not canonical JSON"⟩
  ensure (isText (root.get "schema_version") (.of "autolean.builder-experience-context.v1"))
    ⟨"experience ContextPack schema is unsupported"⟩
  ensure (isText (root.get "authority") (.of "untrusted-advisory-only") ∧
      isText (root.get "token_estimator") (.of "canonical-json-utf8-ceil-div-4.v1"))
    ⟨"experience ContextPack trust metadata is invalid"⟩
  ensure (isHandling py (root.get "handling")) ⟨"experience ContextPack handling policy is invalid"⟩
  let query ← queryFromPayload (← mapping (root.get "query") "query")
  let querySha256 ← string (root.get "query_sha256") "query_sha256"
  let candidateRecordSha256 ← stringTuple (root.get "candidate_record_sha256") "candidate_record_sha256"
  ensure (isText (root.get "candidate_set_sha256") (candidateSetSha256 py candidateRecordSha256))
    ⟨"experience candidate snapshot hash does not match"⟩
  let records ← (← list (root.get "records") "records").mapM (recordFromEnvelope py)
  let estimatedTokens ← integer (root.get "estimated_tokens") "estimated_tokens"
  let pack ← Checked.make PackFields.postInit { query, querySha256, candidateRecordSha256, records, estimatedTokens }
  ensure (pack.value.render = content) ⟨"experience ContextPack fields are incomplete or changed"⟩
  return pack

end Autolean.Builder.Experience
