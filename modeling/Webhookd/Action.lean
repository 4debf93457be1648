import Webhookd.Signature

/-!
# Objects, actions and results

What the providers and the executor exchange: the Kubernetes objects
(`wizapi`), the actions a provider decides on (`action.go`), the results of
executing them (`result.go`), and the interface of a provider (`provider.go`).
-/

namespace Webhookd

open Go

/-! ## Objects -/

/-- `metav1.ObjectMeta`, as far as it is read. The server assigns the UID and the
    generation; only the equality of UIDs matters. -/
structure ObjectMeta where
  name : GoString
  namespace_ : GoString
  uid : Nat := 0
  generation : Int := 0
  labels : GoMap GoString := ∅
  annotations : GoMap GoString := ∅

/-- `metav1.ConditionStatus`. -/
inductive ConditionStatus
  | true
  | false
  | unknown
  deriving DecidableEq

/-- `metav1.Condition`, as far as it is read. -/
structure Condition where
  type : GoString
  status : ConditionStatus
  deriving DecidableEq

/-- `wizapi.SAMLGroupMappingSpec`; a role or project reference is its name. -/
structure SAMLGroupMappingSpec where
  identityProviderID : GoString
  providerGroupID : GoString
  description : GoString
  roleRef : GoString
  projectRefs : List GoString
  deriving DecidableEq

/-- `wizapi.SAMLGroupMappingStatus`. -/
structure SAMLGroupMappingStatus where
  observedGeneration : Int := 0
  conditions : List Condition := []
  deriving DecidableEq

/-- `wizapi.SAMLGroupMapping`. -/
structure SAMLGroupMapping where
  apiVersion : GoString
  kind : GoString
  metadata : ObjectMeta
  spec : SAMLGroupMappingSpec
  status : SAMLGroupMappingStatus := {}

/-- `client.Object`: the executor is generic over the kind of an object, of which
    it reads the metadata. -/
inductive ClientObject
  | samlGroupMapping (cr : SAMLGroupMapping)
  | other (metadata : ObjectMeta)

namespace ClientObject

def metadata : ClientObject → ObjectMeta
  | .samlGroupMapping cr => cr.metadata
  | .other m => m

/-- The object with other metadata. -/
def withMetadata (m : ObjectMeta) : ClientObject → ClientObject
  | .samlGroupMapping cr => .samlGroupMapping { cr with metadata := m }
  | .other _ => .other m

abbrev name (o : ClientObject) : GoString := o.metadata.name
abbrev namespace_ (o : ClientObject) : GoString := o.metadata.namespace_
abbrev generation (o : ClientObject) : Int := o.metadata.generation

end ClientObject

/-- `watch.EventType`. -/
inductive EventType
  | added
  | modified
  | deleted
  | bookmark
  | error
  deriving DecidableEq

/-- `watch.Event`; the object is `none` when it is no `client.Object`. -/
structure WatchEvent where
  type : EventType
  object : Option ClientObject

/-! ## Errors -/

/-- What the `apierrors.Is...` predicates tell apart. An error that matches none
    of those in use, such as that of a cancelled context, is `unknown`. -/
inductive StatusReason
  | forbidden
  | invalid
  | serverTimeout
  | serviceUnavailable
  | tooManyRequests
  | conflict
  | unknown
  deriving DecidableEq

/-- An error of the Kubernetes client, and the steps it was wrapped at. -/
structure K8sError where
  reason : StatusReason
  text : GoString

/-- `fmt.Errorf(step + ": %w", err)`. -/
def K8sError.wrap (step : String) (e : K8sError) : K8sError := { e with text := step ++ e.text }

/-- The errors of `payload.go` and `extract.go`. The last three carry the id of
    the custom field. -/
inductive JsmError
  | invalidJSON
  | missingIssue
  | missingIssueKey
  | missingStatus
  | fieldMissing (fieldID : GoString)
  | fieldEmpty (fieldID : GoString)
  | fieldType (fieldID : GoString)
  deriving DecidableEq

/-- The sentinels of `action.go`. -/
inductive Sentinel
  | badRequest
  | unprocessable
  deriving DecidableEq

/-- An error of `Provider.Handle`: the sentinel it wraps, if any, and its cause. -/
structure HandleError where
  wraps : Option Sentinel
  cause : JsmError
  deriving DecidableEq

/-! ## Actions and results -/

/-- The reasons of actions and results: the format strings of the source, with
    their arguments. -/
inductive Reason
  | none
  /-- `ticket %s status %q does not match trigger %q` -/
  | statusMismatch (key status trigger : GoString)
  /-- `operator did not mark Ready=True within %s` -/
  | notReadyWithin (d : Duration)
  /-- `watch: ` and the error -/
  | watch (e : K8sError)
  /-- `watch channel closed before sync` -/
  | watchClosed
  /-- `forbidden: ` and the error -/
  | forbidden (e : K8sError)
  /-- `invalid spec: ` and the error -/
  | invalidSpec (e : K8sError)
  | k8s (e : K8sError)
  | provider (e : HandleError)

/-- `ApplyAction`. -/
structure ApplyAction where
  object : ClientObject
  /-- The kind of `ListObject`. -/
  listObject : GoString
  readyCheck : ClientObject → Int → Bool × Int
  annotations : GoMap GoString
  kind : GoString
  source : GoString

/-- `Action`. -/
inductive Action
  | noop (reason : Reason)
  | apply (act : ApplyAction)

/-- `ResultKind`. -/
inductive ResultKind
  | noop
  | ready
  | transientFailure
  | badRequest
  | unprocessable
  | internalError
  | timeout
  deriving DecidableEq

/-- `ResultKind.HTTPStatus`. -/
def ResultKind.httpStatus : ResultKind → Nat
  | .noop | .ready => 200
  | .badRequest => 400
  | .unprocessable => 422
  | .transientFailure => 503
  | .timeout => 504
  | .internalError => 500

/-- `ExecResult`. -/
structure ExecResult where
  kind : ResultKind
  reason : Reason := .none
  crName : GoString := []
  namespace_ : GoString := []
  observedGeneration : Int := 0

/-! ## Providers -/

/-- The status of a `jsm.ResponseBody`. -/
inductive ResponseStatus
  | success
  | noop
  | failure
  deriving DecidableEq

/-- `jsm.ResponseBody`, the one body there is. -/
structure ResponseBody where
  status : ResponseStatus
  reason : Reason
  crName : GoString
  namespace_ : GoString
  observedGeneration : Int
  traceID : GoString
  requestID : GoString

/-- `webhook.Provider`. The signature is verified at a reading of the clock. -/
structure Provider where
  name : GoString
  verifySignature : Header → GoString → Time → Except SignatureError Unit
  handle : GoString → Except HandleError Action
  buildResponse : ExecResult → GoString → GoString → ResponseBody

end Webhookd
