/-
  AiPlatform.Gateway.RatePolicy

  How the gateway makes limiter checks of its rules (`core/gateway/rate_policy.py`):
  the order of the rules, which of them apply to a request, and the policy of each.
-/

import AiPlatform.Gateway.PythonText

namespace AiPlatform.Gateway

structure RatePolicy where
  key : String
  dimension : String
  requests : Int
  window : Int
  burst : Int := 0
  strategy : String := "sliding_window"
  deriving DecidableEq, Repr

/-- A row of `rate_limit_config`, whose columns are never `NULL`. -/
structure RateRule where
  scope : String
  scopeId : String
  requests : Int
  windowSeconds : Int
  burst : Int
  strategy : String
  enabled : Bool
  priority : Int
  deriving DecidableEq, Repr

structure RateUser where
  tenantId : String
  userId : String
  ip : String
  serviceId : String

/-- What the request's state knows of its API key. -/
structure ApiKeyState where
  apiKeyHash : String
  id : String
  keyId : String
  apiKeyId : String

/-- The rate limit of a service's own configuration. -/
structure ServiceRateConfig where
  serviceId : String
  rateLimitEnabled : Bool
  rateLimitRequests : Int
  rateLimitWindow : Int

/-- The keyword arguments of `resolve`. -/
structure ResolveRequest where
  apiKey : ApiKeyState
  user : RateUser
  serviceName : String
  operation : String
  serviceConfig : Option ServiceRateConfig

/-- `left or right` -/
def textOr (left right : String) : String := if left = "" then right else left

def safeSegment (value : String) : String :=
  String.ofList ((textOr (strip value) "unknown").toList.map fun c =>
    if c = ':' ∨ c = '|' then '_' else c)

/-- `_SCOPE_PRECEDENCE`, and 999 for what is no scope. -/
def scopePrecedence (scope : String) : Nat :=
  ([("service", 10), ("api_key", 20), ("tenant", 30), ("user", 40), ("operation", 50),
    ("global", 60)].lookup scope).getD 999

def burstStrategies : List String := ["token_bucket", "sliding_window_with_burst"]

/-- `_rule_sort_key`; its pairs are compared from the left. -/
def ruleBefore (left right : RateRule) : Bool :=
  let leftScope := scopePrecedence (lower (strip left.scope))
  let rightScope := scopePrecedence (lower (strip right.scope))
  leftScope < rightScope || (leftScope == rightScope && left.priority ≤ right.priority)

/-- The rules of a snapshot: those that were read, in order. -/
def compileRules (rules : List RateRule) : List RateRule := rules.mergeSort ruleBefore

/-- `_service_config_policy` -/
def serviceConfigPolicy (request : ResolveRequest) : Option RatePolicy :=
  request.serviceConfig.bind fun config =>
    if config.rateLimitEnabled && 0 < config.rateLimitRequests && 0 < config.rateLimitWindow then
      let tenantScope := safeSegment (textOr request.user.tenantId "public")
      let subject := safeSegment (textOr request.user.userId (textOr request.user.ip "anonymous"))
      let safeOperation := safeSegment (textOr request.operation "proxy")
      let service := safeSegment (textOr request.serviceName config.serviceId)
      some
        { key := "ratelimit:service:" ++ service ++ ":" ++ tenantScope ++ ":" ++ subject ++ ":" ++
            safeOperation
          dimension := "service:" ++ service
          requests := config.rateLimitRequests
          window := config.rateLimitWindow }
    else none

def ruleMatches (scope scopeId : String) (request : ResolveRequest) : Bool :=
  if scope = "global" then true
  else if scope = "service" then scopeId == request.serviceName || scopeId == request.user.serviceId
  else if scope = "api_key" then
    scopeId != "" && [request.apiKey.apiKeyHash, request.apiKey.id, request.apiKey.keyId,
      request.apiKey.apiKeyId].contains scopeId
  else if scope = "tenant" then scopeId != "" && scopeId == request.user.tenantId
  else if scope = "user" then scopeId != "" && scopeId == request.user.userId
  else if scope = "operation" then scopeId != "" && scopeId == request.operation
  else false

def dimensionOf (scope scopeId serviceName operation : String) : String :=
  if scope = "global" then "global"
  else if scope = "service" then "service:" ++ textOr scopeId serviceName
  else if scope = "tenant" then "tenant:" ++ scopeId
  else if scope = "user" then "user:" ++ scopeId
  else if scope = "operation" then "operation:" ++ textOr scopeId operation
  else scope

def keyForPolicy (scope scopeId dimension : String) (request : ResolveRequest) : String :=
  let tenant := safeSegment (textOr request.user.tenantId "public")
  let subject := safeSegment (textOr request.user.userId (textOr request.user.ip "anonymous"))
  let safeOperation := safeSegment (textOr request.operation "proxy")
  let target := safeSegment (textOr scopeId dimension)
  "ratelimit:" ++ scope ++ ":" ++ target ++ ":" ++ tenant ++ ":" ++ subject ++ ":" ++ safeOperation

def policyFromRule (request : ResolveRequest) (rule : RateRule) : Option RatePolicy :=
  let scope := lower (strip rule.scope)
  let scopeId := strip rule.scopeId
  if rule.enabled && ruleMatches scope scopeId request then
    let requests := max rule.requests 1
    let burst := max rule.burst 0
    let strategy := textOr (strip (textOr rule.strategy "sliding_window")) "sliding_window"
    let dimension := dimensionOf scope scopeId request.serviceName request.operation
    some
      { key := keyForPolicy scope scopeId dimension request
        dimension := dimension
        requests := if burstStrategies.contains strategy then requests + burst else requests
        window := max rule.windowSeconds 1
        burst := burst
        strategy := strategy }
  else none

/-- The policies a request gets from the rules. -/
def policiesOf (request : ResolveRequest) (rules : List RateRule) : List RatePolicy :=
  rules.filterMap (policyFromRule request)

/-! ## What the rules come to -/

variable {request : ResolveRequest} {rules : List RateRule} {policy : RatePolicy}

theorem ruleBefore_total (left right : RateRule) : ruleBefore left right || ruleBefore right left := by
  simp only [ruleBefore, Bool.or_eq_true, Bool.and_eq_true, decide_eq_true_eq, beq_iff_eq]
  omega

theorem ruleBefore_trans (first second third : RateRule) (h : ruleBefore first second = true)
    (h' : ruleBefore second third = true) : ruleBefore first third = true := by
  simp only [ruleBefore, Bool.or_eq_true, Bool.and_eq_true, decide_eq_true_eq, beq_iff_eq] at h h' ⊢
  omega

/-- A snapshot holds the rules that were read, by scope and then by priority. -/
theorem compileRules_spec (rules : List RateRule) :
    (compileRules rules).Perm rules ∧
      (compileRules rules).Pairwise fun left right => ruleBefore left right = true :=
  ⟨List.mergeSort_perm rules ruleBefore,
    List.pairwise_mergeSort ruleBefore_trans ruleBefore_total rules⟩

/-- Every policy of a request comes from an enabled rule that matches it, and allows a
    positive number of requests in a positive window. -/
theorem policiesOf_spec (h : policy ∈ policiesOf request (compileRules rules)) :
    (∃ rule ∈ rules, rule.enabled = true ∧
      ruleMatches (lower (strip rule.scope)) (strip rule.scopeId) request = true ∧
      policyFromRule request rule = some policy) ∧ 0 < policy.requests ∧ 0 < policy.window := by
  obtain ⟨rule, hmem, hpolicy⟩ := List.mem_filterMap.mp h
  have hread := (compileRules_spec rules).1.mem_iff.mp hmem
  have hrule := hpolicy
  unfold policyFromRule at hrule
  dsimp only at hrule
  split at hrule
  · rename_i happlies
    obtain ⟨henabled, hmatches⟩ := Bool.and_eq_true_iff.mp happlies
    obtain rfl := Option.some.inj hrule
    refine ⟨⟨rule, hread, henabled, hmatches, hpolicy⟩, ?_, ?_⟩
    · dsimp only
      split <;> omega
    · dsimp only
      omega
  · cases hrule

end AiPlatform.Gateway
