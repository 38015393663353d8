import BearerCredentials.Authenticator

/-!
# Authentication in an HTTP application

An application has one authenticator of its own and one at its gate. Behind the gate only requests with
credentials arrive, and handlers see the credentials that the gate found. A handler may require credentials,
ask for them, or do without.

* `obtain`: the credentials of a request for its handler.
* `Endpoint.service`, `behind`: an endpoint, and a service behind the gate.
* `Application.serve`, `Application.respond`: the response to a request, and what is logged.
* `rejection`: the response to a request without credentials, which never says why.
-/

namespace BearerCredentials.Http

structure Request where
  /-- the path, with the query if there is one -/
  target : String
  headers : Headers
  /-- credentials that were attached to the request before it arrived -/
  attached : Option Credentials

structure Response where
  status : Nat
  contentType : Option String
  wwwAuthenticate : Option String
  body : String
deriving DecidableEq

/-- the response to a request without credentials -/
def rejection : Response where
  status := 401
  contentType := some "application/json"
  wwwAuthenticate := some "Bearer"
  body := (Json.object [("error", .text "Unauthorized")]).compact

/-- a response with a JSON body, its objects sorted by name -/
def jsonResponse (v : Json) : Response where
  status := 200
  contentType := some "application/json"
  wwwAuthenticate := none
  body := v.canonical.compact

def textResponse (text : String) : Response where
  status := 200
  contentType := some "text/plain; charset=utf-8"
  wwwAuthenticate := none
  body := text

/-- the response to a request for a path that is not known -/
def notFound : Response where
  status := 404
  contentType := none
  wwwAuthenticate := none
  body := ""

/-- what a handler does about credentials -/
inductive Endpoint where
  /-- it needs them -/
  | required
  /-- it asks for them -/
  | asked
  /-- it does without -/
  | unneeded
deriving DecidableEq

structure Route where
  endpoint : Endpoint
  gated : Bool
deriving DecidableEq

def routes : List (String × Route) :=
  [("/auth", ⟨.required, false⟩), ("/optional", ⟨.asked, false⟩), ("/open", ⟨.unneeded, false⟩),
    ("/mw/auth", ⟨.required, true⟩), ("/mw/optional", ⟨.asked, true⟩), ("/mw/open", ⟨.unneeded, true⟩)]

def pathOf (target : String) : String :=
  String.ofList (target.toList.takeWhile (· != '?'))

def routeOf? (target : String) : Option Route := routes.lookup (pathOf target)

/-- the credentials of a request for its handler: the attached ones, or else those of the headers -/
def obtain (scheme : SignatureScheme) (now : Nat) (own : Authenticator) (request : Request) :
    Option Extraction :=
  match request.attached with
  | some c => some ⟨some c, []⟩
  | none => own.extract scheme now request.headers

def credentialsOrNull (c : Option Credentials) : Json :=
  match c with
  | none => .null
  | some c => c.json

/-- the handlers of the endpoints, by what they are given -/
structure Handlers where
  required : Credentials → Response
  asked : Option Credentials → Response
  unneeded : Response

/-- handlers that show what they are given -/
def Handlers.showing : Handlers where
  required c := jsonResponse (.object [("auth", c.json)])
  asked c := jsonResponse (.object [("optional", credentialsOrNull c)])
  unneeded := textResponse "open"

/-- what answers requests: the response, and what is logged; none in a breakdown -/
abbrev Service := Request → Option (Response × List LogEvent)

/-- an endpoint, with an authenticator for requests that have no credentials attached -/
def Endpoint.service (scheme : SignatureScheme) (now : Nat) (own : Authenticator) (handlers : Handlers)
    (endpoint : Endpoint) : Service := fun request =>
  match endpoint with
  | .required => do
    let e ← obtain scheme now own request
    match e.credentials with
    | some c => return (handlers.required c, e.log)
    | none => return (rejection, e.log)
  | .asked => do
    let e ← obtain scheme now own request
    return (handlers.asked e.credentials, e.log)
  | .unneeded => return (handlers.unneeded, [])

/-- a service behind a gate: requests arrive there with the credentials that the gate found, and no others do -/
def behind (scheme : SignatureScheme) (now : Nat) (gate : Authenticator) (next : Service) : Service :=
  fun request => do
    let e ← gate.extract scheme now request.headers
    match e.credentials with
    | none => return (rejection, e.log)
    | some c =>
      let (response, log) ← next { request with attached := some c }
      return (response, e.log ++ log)

structure Application where
  /-- the authenticator of the handlers -/
  own : Authenticator
  /-- the authenticator at the gate -/
  gate : Authenticator

namespace Application

/-- the service of an application with some handlers -/
def serve (handlers : Handlers) (scheme : SignatureScheme) (now : Nat) (app : Application) : Service :=
  fun request =>
    match routeOf? request.target with
    | none => some (notFound, [])
    | some route =>
      let endpoint := route.endpoint.service scheme now app.own handlers
      if route.gated then behind scheme now app.gate endpoint request else endpoint request

/-- the response to a request from handlers that show what they are given -/
def respond (scheme : SignatureScheme) (now : Nat) (app : Application) : Service :=
  app.serve .showing scheme now

def debug (app : Application) : String :=
  Text.renderRecord "AppState" [("authenticator", app.own.debug)]

end Application

end BearerCredentials.Http
