import ClearFeature.CoreVersions
import ClearFeature.Lib.StableSort
import Mathlib.Data.List.Infix
import Mathlib.Data.String.Basic

/-!
# API keys (`api/security.py`)

Each route of the API carries an endpoint group. A process that has started lets
a request through to a handler exactly as the policy says, whatever the order of
the configured keys. The texts of a configuration are those that `str.encode`
takes: none has a lone surrogate.
-/

namespace ClearFeature

open StableSort

namespace Security

def roleService : String := "service"

def roleOperator : String := "operator"

def roles : List String := [roleService, roleOperator]

def modeApiKey : String := "api_key"

def modeDisabled : String := "disabled"

def modes : List String := [modeApiKey, modeDisabled]

def envDevelopment : String := "development"

def minSecretLength : Nat := 32

def placeholderMarkers : List String :=
  ["replace", "changeme", "change-me", "placeholder", "example", "secret", "password", "your-key", "xxx"]

inductive Group where
  | isPublic
  | serviceOrOperator
  | operatorOnly
  deriving DecidableEq

def Group.text : Group → String
  | .isPublic => "public"
  | .serviceOrOperator => "service_or_operator"
  | .operatorOnly => "operator"

/-- `_GROUP_ROLES` -/
def Group.roles : Group → List String
  | .isPublic => []
  | .serviceOrOperator => [roleService, roleOperator]
  | .operatorOnly => [roleOperator]

structure ApiKey where
  keyId : String
  role : String
  secret : String
  deriving DecidableEq

structure AuthContext where
  keyId : String
  role : String
  deriving DecidableEq

structure SecurityConfig where
  mode : String
  environment : String
  keys : List ApiKey
  deriving DecidableEq

/-- The functions of Python that the configuration is read with: `json.loads` with no value where it raises,
`str` and `str.lower`. -/
structure PyText where
  loads : String → Option Value
  str : Value → String
  lower : List Char → List Char

section
variable (py : PyText)

/-! ## Configuration -/

def require (c : Prop) [Decidable c] (error : String) : Except String Unit := if c then .ok () else .error error

def reprList (names : List String) : String := "[" ++ ", ".intercalate (names.map reprStr) ++ "]"

def readKey (item : Nat × Value) : Except String ApiKey :=
  let error := s!"FSP_API_KEYS[{item.1}] must have exactly key_id/role/secret"
  match item.2 with
  | .obj kvs =>
    match Dict.get? kvs "key_id", Dict.get? kvs "role", Dict.get? kvs "secret" with
    | some keyId, some role, some secret =>
      if (Dict.keys kvs).all (· ∈ ["key_id", "role", "secret"]) then
        .ok ⟨py.str keyId, py.str role, py.str secret⟩
      else .error error
    | _, _, _ => .error error
  | _ => .error error

def readKeys (rawKeys : String) : Except String (List ApiKey) :=
  if isBlank rawKeys then .ok []
  else match py.loads rawKeys with
    | none => .error "FSP_API_KEYS is not valid JSON (expected a list of \x7b\"key_id\", \"role\", \"secret\"\x7d objects)"
    | some (.arr items) => (items.zipIdx.map Prod.swap).mapM (readKey py)
    | some _ => .error "FSP_API_KEYS must be a JSON list"

def SecurityConfig.fromEnv (env : List (String × String)) : Except String SecurityConfig := do
  let keys ← readKeys py ((Dict.get? env "FSP_API_KEYS").getD "")
  return {
    mode := (Dict.get? env "FSP_SECURITY_MODE").getD modeApiKey
    environment := (Dict.get? env "FSP_ENVIRONMENT").getD envDevelopment
    keys }

def looksLikePlaceholder (secret : String) : Bool :=
  placeholderMarkers.any fun marker => marker.toList <:+: py.lower secret.toList

def validateKey (key : ApiKey) : Except String Unit := do
  require (key.role ∈ roles)
    s!"key {reprStr key.keyId}: role must be one of ('service', 'operator'), got {reprStr key.role}"
  require (minSecretLength ≤ key.secret.length)
    s!"key {reprStr key.keyId}: secret is shorter than {minSecretLength} characters"
  require (looksLikePlaceholder py key.secret = false)
    s!"key {reprStr key.keyId}: secret looks like a placeholder — generate a real one (openssl rand -hex 32)"

def SecurityConfig.validate (config : SecurityConfig) : Except String Unit := do
  require (config.mode ∈ modes)
    s!"FSP_SECURITY_MODE must be one of ('api_key', 'disabled'), got {reprStr config.mode}"
  if config.mode = modeDisabled then
    require (config.environment = envDevelopment)
      s!"FSP_SECURITY_MODE=disabled is allowed only with FSP_ENVIRONMENT={envDevelopment}; this environment is {reprStr config.environment} — refusing to start without authentication"
  else do
    require (config.keys ≠ [])
      "api_key mode requires at least one key in FSP_API_KEYS (or set the explicit development bypass: FSP_SECURITY_MODE=disabled with FSP_ENVIRONMENT=development)"
    require (config.keys.map ApiKey.keyId).Nodup "duplicate key_id values in FSP_API_KEYS"
    require (config.keys.map ApiKey.secret).Nodup "duplicate secret values in FSP_API_KEYS"
    config.keys.forM (validateKey py)

/-! ## Requests -/

/-- The last key with the secret; all are compared. The encodings that are compared are equal exactly if the texts
are. -/
def SecurityConfig.resolve (config : SecurityConfig) (presented : List Char) : Option ApiKey :=
  config.keys.foldl (fun found key => if key.secret.toList = presented then some key else found) none

structure AuthError where
  statusCode : Nat
  detail : List (String × String)
  headers : List (String × String) := []
  deriving DecidableEq

def unauthorized (error : String) : AuthError where
  statusCode := 401
  detail := [("status", "unauthorized"), ("error", error)]
  headers := [("WWW-Authenticate", "Bearer")]

/-- The characters of a header: HTTP carries bytes, which are read as latin-1, and of the control characters only the
tab. -/
def carried (c : Char) : Bool := c.toNat == 9 || (32 ≤ c.toNat && c.toNat ≤ 126) || (128 ≤ c.toNat && c.toNat ≤ 255)

/-- The value of an `Authorization` header. -/
structure Header where
  text : List Char
  carried : text.all carried = true

/-- `request.headers.get("Authorization", "")` -/
def headerText (header : Option Header) : List Char := (header.map Header.text).getD []

/-- `header.partition(" ")` without the separator. -/
def partitionSpace (header : List Char) : List Char × List Char :=
  (header.takeWhile (· ≠ ' '), (header.dropWhile (· ≠ ' ')).drop 1)

def requireRole (config : SecurityConfig) (group : Group) (header : Option Header) : Except AuthError AuthContext :=
  if config.mode = modeDisabled then .ok { keyId := "dev-bypass", role := roleOperator }
  else
    let (scheme, credential) := partitionSpace (headerText header)
    if py.lower scheme ≠ "bearer".toList ∨ strip credential = [] then
      .error (unauthorized "missing or malformed Authorization header")
    else match config.resolve (strip credential) with
      | none => .error (unauthorized "unknown API key")
      | some key =>
        if key.role ∈ group.roles then .ok { keyId := key.keyId, role := key.role }
        else .error {
          statusCode := 403
          detail := [("status", "forbidden"), ("key_id", key.keyId), ("role", key.role), ("required", group.text)] }

/-! ## Routes -/

/-- A route and the group its dependency asks for, if it has one. -/
structure Route where
  method : String
  path : String
  dependency : Option Group
  deriving DecidableEq

def Route.service (method path : String) : Route := ⟨method, path, some .serviceOrOperator⟩

def Route.operator (method path : String) : Route := ⟨method, path, some .operatorOnly⟩

def routes : List Route :=
  [⟨"GET", "/health", none⟩, ⟨"GET", "/ready", none⟩, .operator "GET" "/v1/observability/metrics",
   .operator "POST" "/v1/lineage/feature-value", .service "POST" "/v1/features/latest",
   .service "POST" "/v1/features/history", .service "POST" "/v1/features/consistency-check",
   .operator "POST" "/v1/training-datasets/build", .service "POST" "/v1/feature-requests",
   .service "POST" "/v1/model-scores", .operator "POST" "/v1/batch/jobs", .operator "GET" "/v1/batch/jobs/\x7bjob_id\x7d",
   .operator "POST" "/v1/source-datasets/ingest-jsonl", .operator "POST" "/v1/source-datasets/ingest-dwh-json",
   .operator "POST" "/v1/source-datasets/import-dwh-features",
   .operator "GET" "/v1/source-datasets/\x7bmanifest_id\x7d", .service "POST" "/v1/feature-requests/compute",
   .service "GET" "/v1/feature-requests/\x7brequest_id\x7d"]

def endpointPolicy : List (String × Group) :=
  [("/health", .isPublic), ("/ready", .isPublic),
   ("/v1/features/latest", .serviceOrOperator), ("/v1/features/history", .serviceOrOperator),
   ("/v1/features/consistency-check", .serviceOrOperator), ("/v1/feature-requests", .serviceOrOperator),
   ("/v1/feature-requests/compute", .serviceOrOperator), ("/v1/feature-requests/\x7brequest_id\x7d", .serviceOrOperator),
   ("/v1/model-scores", .serviceOrOperator),
   ("/v1/observability/metrics", .operatorOnly), ("/v1/lineage/feature-value", .operatorOnly),
   ("/v1/batch/jobs", .operatorOnly), ("/v1/batch/jobs/\x7bjob_id\x7d", .operatorOnly),
   ("/v1/source-datasets/ingest-jsonl", .operatorOnly), ("/v1/source-datasets/ingest-dwh-json", .operatorOnly),
   ("/v1/source-datasets/import-dwh-features", .operatorOnly),
   ("/v1/source-datasets/\x7bmanifest_id\x7d", .operatorOnly), ("/v1/training-datasets/build", .operatorOnly)]

def exempt : List String := ["/docs", "/redoc", "/openapi.json", "/docs/oauth2-redirect"]

def assertPolicyComplete (routes : List Route) (policy : List (String × Group)) (serviceName : String) :
    Except String Unit := do
  let mounted := ((routes.map Route.path).filter (· ∉ exempt)).dedup
  let unclassified := mounted.filter (· ∉ Dict.keys policy)
  require (unclassified = [])
    s!"{serviceName}: routes without a security classification: {reprList (sortedBy id unclassified)} — add them to the endpoint policy"
  let stale := (Dict.keys policy).filter (· ∉ mounted)
  require (stale = []) s!"{serviceName}: endpoint policy lists unknown routes: {reprList (sortedBy id stale)}"

/-- What a started process answers requests with. -/
structure App where
  security : SecurityConfig
  routes : List Route
  deriving DecidableEq

/-- `create_app` as far as it is about security. -/
def createApp (env : List (String × String)) : Except String App := do
  let security ← SecurityConfig.fromEnv py env
  security.validate py
  assertPolicyComplete Security.routes endpointPolicy "feature-api"
  return { security, routes := Security.routes }

/-- What reaches the handler of a route. -/
def App.authorize (app : App) (route : Route) (header : Option Header) : Except AuthError (Option AuthContext) :=
  match route.dependency with
  | none => .ok none
  | some group => do return some (← requireRole py app.security group header)

/-! ## Accepted configurations -/

@[simp] theorem require_ok {c : Prop} [Decidable c] {error : String} : require c error = .ok () ↔ c := by
  unfold require
  by_cases h : c <;> simp [h]

theorem bind_ok_unit {a b : Except String Unit} : (do a; b) = .ok () ↔ a = .ok () ∧ b = .ok () := by
  cases a with
  | error e => simp [bind, Except.bind]
  | ok u => simp [bind, Except.bind]

theorem forM_ok {α : Type} {f : α → Except String Unit} (xs : List α) :
    xs.forM f = .ok () ↔ ∀ x ∈ xs, f x = .ok () := by
  induction xs with
  | nil => simp [List.forM, pure, Except.pure]
  | cons x xs ih =>
    rw [List.forM, bind_ok_unit, ih]
    simp

structure ValidKey (key : ApiKey) : Prop where
  role : key.role ∈ roles
  long : minSecretLength ≤ key.secret.length
  real : looksLikePlaceholder py key.secret = false

theorem validateKey_ok {key : ApiKey} : validateKey py key = .ok () ↔ ValidKey py key := by
  unfold validateKey
  simp only [bind_ok_unit, require_ok]
  exact ⟨fun h => ⟨h.1, h.2.1, h.2.2⟩, fun h => ⟨h.role, h.long, h.real⟩⟩

/-- The keys of a process that asks for them. -/
structure ValidKeys (keys : List ApiKey) : Prop where
  nonempty : keys ≠ []
  ids : (keys.map ApiKey.keyId).Nodup
  secrets : (keys.map ApiKey.secret).Nodup
  keys : ∀ key ∈ keys, ValidKey py key

theorem validate_ok {config : SecurityConfig} :
    config.validate py = .ok () ↔ config.mode ∈ modes ∧
      (if config.mode = modeDisabled then config.environment = envDevelopment else ValidKeys py config.keys) := by
  unfold SecurityConfig.validate
  rw [bind_ok_unit, require_ok]
  apply and_congr_right
  intro _
  by_cases hmode : config.mode = modeDisabled
  · rw [if_pos hmode, if_pos hmode, require_ok]
  · rw [if_neg hmode, if_neg hmode]
    simp only [bind_ok_unit, require_ok, forM_ok, validateKey_ok]
    exact ⟨fun h => ⟨h.1, h.2.1, h.2.2.1, h.2.2.2⟩, fun h => ⟨h.nonempty, h.ids, h.secrets, h.keys⟩⟩

theorem ValidKeys.perm {keys keys' : List ApiKey} (h : ValidKeys py keys) (hperm : keys.Perm keys') :
    ValidKeys py keys' := by
  refine ⟨?_, (hperm.map ApiKey.keyId).nodup_iff.mp h.ids, (hperm.map ApiKey.secret).nodup_iff.mp h.secrets, ?_⟩
  · intro hnil
    rw [hnil] at hperm
    exact h.nonempty hperm.eq_nil
  · intro key hkey
    exact h.keys key (hperm.mem_iff.mpr hkey)

/-! ## The key of a credential -/

/-- The scan finds the last key with the secret. -/
theorem resolve_spec (presented : List Char) (keys : List ApiKey) : ∀ found : Option ApiKey,
    (∀ key, found = some key → key.secret.toList = presented) →
    let result := keys.foldl (fun found key => if key.secret.toList = presented then some key else found) found
    (∀ key, result = some key → (key ∈ keys ∨ found = some key) ∧ key.secret.toList = presented) ∧
      (result = none ↔ found = none ∧ ∀ key ∈ keys, key.secret.toList ≠ presented) := by
  induction keys with
  | nil =>
    intro found hfound
    exact ⟨fun key h => ⟨.inr h, hfound key h⟩, by simp⟩
  | cons key keys ih =>
    intro found hfound
    by_cases hkey : key.secret.toList = presented
    · obtain ⟨hsome, hnone⟩ := ih (some key) (by
        intro key' h
        cases h
        exact hkey)
      simp only [List.foldl_cons, if_pos hkey]
      refine ⟨?_, ?_⟩
      · intro key' h
        obtain ⟨hmem, hsecret⟩ := hsome key' h
        refine ⟨.inl ?_, hsecret⟩
        cases hmem with
        | inl hmem => exact List.mem_cons_of_mem _ hmem
        | inr hmem =>
          cases hmem
          exact List.mem_cons_self
      · rw [hnone]
        simp [hkey]
    · obtain ⟨hsome, hnone⟩ := ih found hfound
      simp only [List.foldl_cons, if_neg hkey]
      refine ⟨?_, ?_⟩
      · intro key' h
        obtain ⟨hmem, hsecret⟩ := hsome key' h
        refine ⟨?_, hsecret⟩
        cases hmem with
        | inl hmem => exact .inl (List.mem_cons_of_mem _ hmem)
        | inr hmem => exact .inr hmem
      · rw [hnone]
        simp [hkey]

variable {py}

theorem resolve_eq_none_iff {config : SecurityConfig} {presented : List Char} :
    config.resolve presented = none ↔ ∀ key ∈ config.keys, key.secret.toList ≠ presented := by
  have h := (resolve_spec presented config.keys none (by simp)).2
  simpa [SecurityConfig.resolve] using h

theorem resolve_eq_some_iff {config : SecurityConfig} (hsecrets : (config.keys.map ApiKey.secret).Nodup)
    {presented : List Char} {key : ApiKey} :
    config.resolve presented = some key ↔ key ∈ config.keys ∧ key.secret.toList = presented := by
  have hspec := (resolve_spec presented config.keys none (by simp)).1
  constructor
  · intro h
    obtain ⟨hmem, hsecret⟩ := hspec key h
    exact ⟨hmem.resolve_right (by simp), hsecret⟩
  · intro h
    obtain ⟨hmem, hsecret⟩ := h
    cases hr : config.resolve presented with
    | none => exact absurd hsecret (resolve_eq_none_iff.mp hr key hmem)
    | some key' =>
      obtain ⟨hmem', hsecret'⟩ := hspec key' hr
      have hmem' := hmem'.resolve_right (by simp)
      have hsame : key'.secret = key.secret := String.toList_injective (hsecret'.trans hsecret.symm)
      rw [List.inj_on_of_nodup_map hsecrets hmem' hmem hsame]

/-! ## The gate -/

/-- The header carries the credential: a scheme, a space, and the credential with white space around it. -/
def Presents (py : PyText) (header : Option Header) (credential : List Char) : Prop :=
  ∃ scheme rest, headerText header = scheme ++ ' ' :: rest ∧ ' ' ∉ scheme ∧
    py.lower scheme = "bearer".toList ∧ strip rest = credential

theorem partitionSpace_append {scheme rest : List Char} (h : ' ' ∉ scheme) :
    partitionSpace (scheme ++ ' ' :: rest) = (scheme, rest) := by
  have hne : ∀ c ∈ scheme, (c ≠ ' ') := by
    intro c hc he
    subst he
    exact h hc
  unfold partitionSpace
  rw [List.takeWhile_append_of_pos (by simpa using hne), List.dropWhile_append_of_pos (by simpa using hne)]
  simp

theorem presents_iff {header : Option Header} {credential : List Char} (hne : credential ≠ []) :
    Presents py header credential ↔
      py.lower (partitionSpace (headerText header)).1 = "bearer".toList ∧
        strip (partitionSpace (headerText header)).2 = credential := by
  constructor
  · intro h
    obtain ⟨scheme, rest, hheader, hspace, hscheme, hrest⟩ := h
    rw [hheader, partitionSpace_append hspace]
    exact ⟨hscheme, hrest⟩
  · intro h
    obtain ⟨hscheme, hrest⟩ := h
    cases hdrop : (headerText header).dropWhile (· ≠ ' ') with
    | nil =>
      -- without a space there is no credential
      simp only [partitionSpace, hdrop, List.drop_nil] at hrest
      exact absurd hrest.symm hne
    | cons c rest =>
      have hc : c = ' ' := by
        have := List.head?_dropWhile_not (fun c => decide (c ≠ ' ')) (headerText header)
        rw [hdrop] at this
        simpa using this
      subst hc
      refine ⟨_, rest, ?_, ?_, hscheme, ?_⟩
      · show _ = (headerText header).takeWhile (· ≠ ' ') ++ ' ' :: rest
        rw [← hdrop, List.takeWhile_append_dropWhile]
      · intro hmem
        have := List.mem_takeWhile_imp hmem
        simp at this
      · unfold partitionSpace at hrest
        dsimp only at hrest
        rw [hdrop] at hrest
        exact hrest

section
variable {config : SecurityConfig} {group : Group} {header : Option Header}

theorem ValidKeys.secret_ne_nil (h : ValidKeys py config.keys) {key : ApiKey} (hkey : key ∈ config.keys) :
    key.secret.toList ≠ [] := by
  intro hnil
  have hlong := (h.keys key hkey).long
  simp [minSecretLength, ← String.length_toList, hnil] at hlong

variable (group header) in
/-- What the dependency does outside development. -/
theorem requireRole_spec (hmode : config.mode ≠ modeDisabled) (h : ValidKeys py config.keys) :
    match requireRole py config group header with
    | .ok context => ∃ key ∈ config.keys, Presents py header key.secret.toList ∧ key.role ∈ group.roles ∧
        context = ⟨key.keyId, key.role⟩
    | .error error =>
      (error.statusCode = 401 ∧ ∀ key ∈ config.keys, ¬ Presents py header key.secret.toList) ∨
      (error.statusCode = 403 ∧ ∃ key ∈ config.keys, Presents py header key.secret.toList ∧ key.role ∉ group.roles) := by
  unfold requireRole
  rw [if_neg hmode]
  dsimp only
  by_cases hmalformed : py.lower (partitionSpace (headerText header)).1 ≠ "bearer".toList ∨
      strip (partitionSpace (headerText header)).2 = []
  · rw [if_pos hmalformed]
    refine .inl ⟨rfl, ?_⟩
    intro key hkey hpresents
    have hne := h.secret_ne_nil hkey
    obtain ⟨hscheme, hcredential⟩ := (presents_iff hne).mp hpresents
    cases hmalformed with
    | inl hbad => exact hbad hscheme
    | inr hnil => exact hne (hcredential.symm.trans hnil)
  · rw [if_neg hmalformed]
    simp only [not_or, not_not] at hmalformed
    obtain ⟨hscheme, hcredential⟩ := hmalformed
    have hpresents : ∀ key ∈ config.keys, Presents py header key.secret.toList ↔
        key.secret.toList = strip (partitionSpace (headerText header)).2 := by
      intro key hkey
      rw [presents_iff (h.secret_ne_nil hkey)]
      exact ⟨fun hp => hp.2.symm, fun he => ⟨hscheme, he.symm⟩⟩
    cases hr : config.resolve (strip (partitionSpace (headerText header)).2) with
    | none =>
      refine .inl ⟨rfl, ?_⟩
      intro key hkey hp
      exact resolve_eq_none_iff.mp hr key hkey ((hpresents key hkey).mp hp)
    | some key =>
      obtain ⟨hkey, hsecret⟩ := (resolve_eq_some_iff h.secrets).mp hr
      have hp := (hpresents key hkey).mpr hsecret
      dsimp only
      by_cases hrole : key.role ∈ group.roles
      · rw [if_pos hrole]
        exact ⟨key, hkey, hp, hrole, rfl⟩
      · rw [if_neg hrole]
        exact .inr ⟨rfl, key, hkey, hp, hrole⟩

theorem Presents.unique {credential credential' : List Char} (hne : credential ≠ []) (hne' : credential' ≠ [])
    (h : Presents py header credential) (h' : Presents py header credential') : credential = credential' :=
  ((presents_iff hne).mp h).2.symm.trans ((presents_iff hne').mp h').2

/-- The key of a header is the only one. -/
theorem ValidKeys.unique (h : ValidKeys py config.keys) {key key' : ApiKey} (hkey : key ∈ config.keys)
    (hkey' : key' ∈ config.keys) (hp : Presents py header key.secret.toList)
    (hp' : Presents py header key'.secret.toList) : key = key' := by
  have hsecret := Presents.unique (h.secret_ne_nil hkey) (h.secret_ne_nil hkey') hp hp'
  exact List.inj_on_of_nodup_map h.secrets hkey hkey' (String.toList_injective hsecret)

theorem requireRole_ok_iff (hmode : config.mode ≠ modeDisabled) (h : ValidKeys py config.keys)
    {context : AuthContext} :
    requireRole py config group header = .ok context ↔
      ∃ key ∈ config.keys, Presents py header key.secret.toList ∧ key.role ∈ group.roles ∧
        context = ⟨key.keyId, key.role⟩ := by
  have hspec := requireRole_spec group header hmode h
  constructor
  · intro hr
    rw [hr] at hspec
    exact hspec
  · intro hk
    obtain ⟨key, hkey, hp, hrole, rfl⟩ := hk
    cases hr : requireRole py config group header with
    | ok context =>
      rw [hr] at hspec
      obtain ⟨key', hkey', hp', -, rfl⟩ := hspec
      rw [h.unique hkey hkey' hp hp']
    | error error =>
      rw [hr] at hspec
      cases hspec with
      | inl hspec => exact absurd hp (hspec.2 key hkey)
      | inr hspec =>
        obtain ⟨-, key', hkey', hp', hrole'⟩ := hspec
        rw [h.unique hkey hkey' hp hp'] at hrole
        exact absurd hrole hrole'

end

/-! ## Started processes -/

/-- Each route asks for the group that the policy gives it. -/
theorem routes_policy : ∀ route ∈ routes, Dict.get? endpointPolicy route.path = some (route.dependency.getD .isPublic) ∧
    route.dependency ≠ some .isPublic := by
  decide +kernel

theorem createApp_ok {env : List (String × String)} {app : App} (h : createApp py env = .ok app) :
    SecurityConfig.fromEnv py env = .ok app.security ∧ app.routes = routes ∧ app.security.validate py = .ok () := by
  unfold createApp at h
  cases hc : SecurityConfig.fromEnv py env with
  | error e =>
    rw [hc] at h
    cases h
  | ok security =>
    rw [hc] at h
    cases hv : security.validate py with
    | error e =>
      simp [bind, Except.bind, hv] at h
    | ok u =>
      cases ha : assertPolicyComplete routes endpointPolicy "feature-api" with
      | error e => simp [bind, Except.bind, hv, ha] at h
      | ok u =>
        simp [bind, Except.bind, hv, ha, pure, Except.pure] at h
        subst h
        exact ⟨rfl, rfl, hv⟩

/-- In a process that has started, a request without authentication reaches the handlers of the public routes only,
unless the process runs in development with authentication disabled; any other handler is reached exactly with the
credential of a configured key whose role the policy admits, and the handler learns which key. -/
theorem started_gate (py : PyText) (env : List (String × String)) (app : App) (h : createApp py env = .ok app) :
    (app.security.mode = modeDisabled ∧ app.security.environment = envDevelopment) ∨
    (app.security.mode = modeApiKey ∧ ∀ route ∈ app.routes, ∀ header,
      ∃ group, Dict.get? endpointPolicy route.path = some group ∧
        match app.authorize py route header with
        | .ok none => group = .isPublic
        | .ok (some context) => group ≠ .isPublic ∧ ∃ key ∈ app.security.keys,
            Presents py header key.secret.toList ∧ key.role ∈ group.roles ∧ context = ⟨key.keyId, key.role⟩ ∧
              ∀ key' ∈ app.security.keys, Presents py header key'.secret.toList → key' = key
        | .error error => group ≠ .isPublic ∧
            ((error.statusCode = 401 ∧ ∀ key ∈ app.security.keys, ¬ Presents py header key.secret.toList) ∨
            (error.statusCode = 403 ∧ ∃ key ∈ app.security.keys,
              Presents py header key.secret.toList ∧ key.role ∉ group.roles))) := by
  obtain ⟨-, hroutes, hvalid⟩ := createApp_ok h
  obtain ⟨hmode, hkeys⟩ := (validate_ok py).mp hvalid
  by_cases hdisabled : app.security.mode = modeDisabled
  · rw [if_pos hdisabled] at hkeys
    exact .inl ⟨hdisabled, hkeys⟩
  · rw [if_neg hdisabled] at hkeys
    have hapi : app.security.mode = modeApiKey := by
      simpa [modes, hdisabled] using hmode
    refine .inr ⟨hapi, ?_⟩
    intro route hroute header
    rw [hroutes] at hroute
    obtain ⟨hpolicy, hpublic⟩ := routes_policy route hroute
    refine ⟨_, hpolicy, ?_⟩
    unfold App.authorize
    cases hd : route.dependency with
    | none => rfl
    | some group =>
      have hne : group ≠ .isPublic := by
        intro he
        subst he
        exact hpublic hd
      have hspec := requireRole_spec group header hdisabled hkeys
      dsimp only [Option.getD_some]
      cases hr : requireRole py app.security group header with
      | ok context =>
        rw [hr] at hspec
        obtain ⟨key, hkey, hp, hrole, hcontext⟩ := hspec
        exact ⟨hne, key, hkey, hp, hrole, hcontext, fun key' hkey' hp' => hkeys.unique hkey' hkey hp' hp⟩
      | error error =>
        rw [hr] at hspec
        exact ⟨hne, hspec⟩

/-! ## What a key opens -/

theorem strip_idem (cs : List Char) : strip (strip cs) = strip cs := by
  obtain ⟨s₁, s₂, h₁, h₂, hsplit⟩ := strip_split cs
  have hempty : AllSpace [] := by simp [AllSpace]
  have htrimmed : Trimmed (strip cs) := by
    refine ⟨?_, ?_⟩
    · intro c hc
      have hfront : ∀ d, (cs.dropWhile isSpace).head? = some d → isSpace d = false := by
        intro d hd
        have := List.head?_dropWhile_not isSpace cs
        rw [hd] at this
        simpa using this
      apply hfront c
      rw [dropWhile_eq_strip]
      cases hs : strip cs with
      | nil =>
        rw [hs] at hc
        cases hc
      | cons d ds =>
        rw [hs] at hc
        simpa using hc
    · intro c hc
      have hback := List.head?_dropWhile_not isSpace (cs.dropWhile isSpace).reverse
      have hhead : ((cs.dropWhile isSpace).reverse.dropWhile isSpace).head? = some c := by
        rw [← hc, strip, List.getLast?_reverse]
      rw [hhead] at hback
      simpa using hback
  have := strip_eq hempty hempty htrimmed
  simpa using this

section
variable {config : SecurityConfig} {key : ApiKey}

/-- The header of a client that has a secret HTTP carries. -/
def Header.bearer (secret : List Char) (h : secret.all Security.carried = true) : Header where
  text := "Bearer ".toList ++ secret
  carried := by
    rw [List.all_append, h]
    decide

theorem presents_bearer (hlower : py.lower "Bearer".toList = "bearer".toList) {secret : List Char}
    (h : secret.all carried = true) : Presents py (some (Header.bearer secret h)) (strip secret) :=
  ⟨"Bearer".toList, secret, rfl, by decide, hlower, rfl⟩

/-- A header that presents a secret has it without white space around it. -/
theorem Presents.stripped {header : Option Header} {credential : List Char} (h : Presents py header credential) :
    strip credential = credential := by
  obtain ⟨scheme, rest, -, -, -, rfl⟩ := h
  exact strip_idem rest

theorem headerText_carried (header : Option Header) : (headerText header).all carried = true := by
  cases header with
  | none => rfl
  | some header => exact header.carried

/-- A credential that some header presents consists of characters of headers. -/
theorem Presents.carried {header : Option Header} {credential : List Char} (h : Presents py header credential) :
    credential.all Security.carried = true := by
  obtain ⟨scheme, rest, hheader, -, -, rfl⟩ := h
  have hall := headerText_carried header
  obtain ⟨s₁, s₂, -, -, hsplit⟩ := strip_split rest
  rw [hheader, hsplit] at hall
  simp only [List.all_append, List.all_cons, Bool.and_eq_true] at hall
  exact hall.2.2.1.2

theorem requireRole_perm {keys : List ApiKey} (hmode : config.mode ≠ modeDisabled) (h : ValidKeys py config.keys)
    (hperm : config.keys.Perm keys) (group : Group) (header : Option Header) :
    requireRole py { config with keys } group header = requireRole py config group header := by
  have hresolve : ∀ presented, SecurityConfig.resolve { config with keys } presented = config.resolve presented := by
    intro presented
    have hkeys := ValidKeys.perm py h hperm
    cases hr : config.resolve presented with
    | none =>
      apply resolve_eq_none_iff.mpr
      intro key hkey
      exact resolve_eq_none_iff.mp hr key (hperm.mem_iff.mpr hkey)
    | some key =>
      obtain ⟨hkey, hsecret⟩ := (resolve_eq_some_iff h.secrets).mp hr
      have hresolved : ({ config with keys } : SecurityConfig).resolve presented = some key :=
        (resolve_eq_some_iff hkeys.secrets).mpr ⟨hperm.mem_iff.mp hkey, hsecret⟩
      exact hresolved
  unfold requireRole
  rw [if_neg hmode, if_neg hmode]
  simp only [hresolve]

end

def pilotKeysText : String :=
  "[\x7b\"key_id\": \"svc\", \"role\": \"service\", \"secret\": \"0f1e2d3c4b5a69788796a5b4c3d2e1f0\"\x7d, " ++
  "\x7b\"key_id\": \"ops\", \"role\": \"operator\", \"secret\": \"f0e1d2c3b4a5968778695a4b3c2d1e0f\"\x7d]"

def pilotKeys : List ApiKey :=
  [⟨"svc", "service", "0f1e2d3c4b5a69788796a5b4c3d2e1f0"⟩, ⟨"ops", "operator", "f0e1d2c3b4a5968778695a4b3c2d1e0f"⟩]

/-- Python on the texts of the pilot. -/
def pilotText : PyText where
  loads s :=
    if s = pilotKeysText then
      some (.arr (pilotKeys.map fun key =>
        .obj [("key_id", .str key.keyId), ("role", .str key.role), ("secret", .str key.secret)]))
    else none
  str v := match v with | .str s => s | _ => ""
  lower cs := cs.map Char.toLower

def pilotEnv : List (String × String) := [("FSP_ENVIRONMENT", "pilot"), ("FSP_API_KEYS", pilotKeysText)]

def pilotApp : App where
  security := { mode := modeApiKey, environment := "pilot", keys := pilotKeys }
  routes

theorem pilot_starts : createApp pilotText pilotEnv = .ok pilotApp := by
  decide +kernel

theorem started_gate_pilot :
    (pilotApp.security.mode = modeDisabled ∧ pilotApp.security.environment = envDevelopment) ∨
    (pilotApp.security.mode = modeApiKey ∧ ∀ route ∈ pilotApp.routes, ∀ header,
      ∃ group, Dict.get? endpointPolicy route.path = some group ∧
        match pilotApp.authorize pilotText route header with
        | .ok none => group = .isPublic
        | .ok (some context) => group ≠ .isPublic ∧ ∃ key ∈ pilotApp.security.keys,
            Presents pilotText header key.secret.toList ∧ key.role ∈ group.roles ∧ context = ⟨key.keyId, key.role⟩ ∧
              ∀ key' ∈ pilotApp.security.keys, Presents pilotText header key'.secret.toList → key' = key
        | .error error => group ≠ .isPublic ∧
            ((error.statusCode = 401 ∧ ∀ key ∈ pilotApp.security.keys, ¬ Presents pilotText header key.secret.toList) ∨
            (error.statusCode = 403 ∧ ∃ key ∈ pilotApp.security.keys,
              Presents pilotText header key.secret.toList ∧ key.role ∉ group.roles))) :=
  started_gate pilotText pilotEnv pilotApp pilot_starts

end

end Security

end ClearFeature
