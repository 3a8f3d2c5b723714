import Noema.Lib.PyRuntime

/-!
# API keys (`api/auth.py`)

`APIKeyAuthMiddleware.dispatch` is the first middleware of the server. It lets a request pass, with
the tenant that its key is bound to, or answers it itself with 401 or 403.

There are four modes, tried in this order (auth.py:40-105):

- public paths (`publicPaths`) pass without a key, and the context stays as it is;
- with `api_keys`, the key of the request is compared with the key of each binding, and the tenant
  of the first match is put into the context (`dispatchBindings`);
- with one master key instead, a request that has it gets the tenant `default` (`dispatchMaster`);
- with neither, everything passes.

The comparison is `secrets.compare_digest` on texts, which raises on text that is not ASCII. It
raises for the text of the client and for the text of a binding alike, so `tenantOf` is a
computation that may fail, and the request then ends with an error of the server and not with a
pass.

What the endpoints make of the tenant is in `Server`. The handlers read a header of their own before
they look at the context, which is why the tenant of an `AuthOutcome` is not yet the tenant that a
request acts for.
-/

namespace Noema.Api

open Noema.Lib

/-- A request: the server has put the names of the headers into lower case. -/
structure HttpRequest where
  path : String
  headers : List (String × String)

/-- `request.headers.get(name)`: the first header with the name. -/
def HttpRequest.header (request : HttpRequest) (name : String) : Option String :=
  (request.headers.find? fun h => h.1 = name.toLower).map Prod.snd

/-- `APIKeyBinding`. -/
structure APIKeyBinding where
  key : String
  tenantId : String := "default"

/-- `APISettings`: who may use the API. -/
structure APISettings where
  apiKey : String := ""
  apiKeyHeader : String := "X-API-Key"
  apiKeys : List APIKeyBinding := []

/-- `_PUBLIC_PATHS`. -/
def publicPaths : List String := ["/", "/health", "/ready", "/docs", "/openapi.json", "/redoc"]

/-- What the middleware does with a request: it answers it, or calls the next one, with a tenant
in the context or with the context as it is. -/
inductive AuthOutcome where
  | response (status : Nat) (error message : String)
  | next (tenantId : Option String)
  deriving DecidableEq, Repr

/-- `secrets.compare_digest` of texts. -/
def compareDigest (a b : String) : Except PyExc Bool :=
  if a.toList.all Char.isAscii ∧ b.toList.all Char.isAscii then .ok (a == b)
  else .error (.typeError "comparing strings with non-ASCII characters is not supported")

/-- The tenant of the first binding with the key (auth.py:63). The bindings are compared one after
the other, and a comparison that raises ends the search. -/
def tenantOf (providedKey : String) : List APIKeyBinding → Except PyExc (Option String)
  | [] => .ok none
  | binding :: bindings =>
    if binding.key ≠ "" then do
      let same ← compareDigest providedKey binding.key
      if same then .ok (some binding.tenantId) else tenantOf providedKey bindings
    else tenantOf providedKey bindings

/-- The answer to a request without a key. -/
def missingKey (settings : APISettings) : AuthOutcome :=
  .response 401 "missing_api_key" ("Provide key via " ++ settings.apiKeyHeader ++ " header")

/-- The answer to a request with another key. -/
def invalidKey : AuthOutcome := .response 403 "invalid_api_key" "API key is invalid"

/-- The mode with bindings (auth.py:50). A request without a key and a request with an unknown key
are answered; a known key puts its tenant into the context. -/
def dispatchBindings (settings : APISettings) (providedKey : String) :
    Except PyExc AuthOutcome :=
  if providedKey = "" then .ok (missingKey settings)
  else do
    let tenantId ← tenantOf providedKey settings.apiKeys
    .ok (tenantId.elim invalidKey fun tenantId => .next (some tenantId))

/-- The mode with one key (auth.py:84). Whoever has it acts for the tenant `default`. -/
def dispatchMaster (settings : APISettings) (providedKey : String) : Except PyExc AuthOutcome :=
  if providedKey = "" then .ok (missingKey settings)
  else do
    let same ← compareDigest providedKey settings.apiKey
    .ok (if same then .next (some "default") else invalidKey)

/-- `dispatch` (auth.py:40). -/
def dispatch (settings : APISettings) (request : HttpRequest) : Except PyExc AuthOutcome :=
  if request.path ∈ publicPaths then .ok (.next none)
  else
    let providedKey := (request.header settings.apiKeyHeader).getD ""
    if settings.apiKeys ≠ [] then dispatchBindings settings providedKey
    else if settings.apiKey ≠ "" then dispatchMaster settings providedKey
    else .ok (.next none)

end Noema.Api
