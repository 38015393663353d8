import BearerCredentials.Http.Application
import BearerCredentials.Proofs.Authenticator.Stages

/-!
# How a request is answered

* `Handlers.answer`         the answer of an endpoint to the credentials that it is given;
* `behind_endpoint`         the same behind a gate, which gives it what it found;
* `Application.Answers`     the six ways in which an application comes to an answer;
* `serve_eq_some_iff`       there are no others;
* `Application.Consults`    the authenticators that are asked about a request;
* `serve_eq_none_iff`       an answer is missing only where one of these breaks down.
-/

namespace BearerCredentials.Http

variable {handlers : Handlers} {scheme : SignatureScheme} {now : Nat} {own gate : Authenticator} {next : Service}
  {endpoint : Endpoint} {route : Route} {request : Request} {c : Credentials} {found : Option Credentials}
  {response : Response} {log : List LogEvent}

/-! ## paths -/

def Endpoint.path : Endpoint → String
  | .required => "/auth"
  | .asked => "/optional"
  | .unneeded => "/open"

def Route.path (route : Route) : String :=
  if route.gated then "/mw" ++ route.endpoint.path else route.endpoint.path

def Request.IsFor (request : Request) (route : Route) : Prop := pathOf request.target = route.path

theorem mem_routes_iff {path : String} : (path, route) ∈ routes ↔ path = route.path := by
  obtain ⟨endpoint, gated⟩ := route
  cases endpoint <;> cases gated <;> simp [routes, Route.path, Endpoint.path]

theorem lookup_path (route : Route) : routes.lookup route.path = some route := by
  obtain ⟨endpoint, gated⟩ := route
  cases endpoint <;> cases gated <;> decide

theorem routeOf?_eq_some_iff : routeOf? request.target = some route ↔ request.IsFor route := by
  unfold routeOf? Request.IsFor
  constructor
  · intro h
    obtain ⟨before, after, heq, -⟩ := List.lookup_eq_some_iff.1 h
    rw [← mem_routes_iff, heq]
    exact List.mem_append_right _ List.mem_cons_self
  · intro h
    rw [h]
    exact lookup_path route

/-! ## an endpoint -/

/-- the answer of an endpoint to what was found; one that requires credentials rejects a request without any -/
def Handlers.answer (handlers : Handlers) : Endpoint → Option Credentials → Response
  | .required, some c => handlers.required c
  | .required, none => rejection
  | .asked, found => handlers.asked found
  | .unneeded, _ => handlers.unneeded

theorem service_unneeded : Endpoint.unneeded.service scheme now own handlers request = some (handlers.unneeded, []) :=
  rfl

theorem service_of_ne_unneeded (hn : endpoint ≠ .unneeded) :
    endpoint.service scheme now own handlers request =
      (obtain scheme now own request).map fun e => (handlers.answer endpoint e.credentials, e.log) := by
  unfold Endpoint.service
  cases endpoint with
  | unneeded => exact absurd rfl hn
  | asked => cases obtain scheme now own request <;> rfl
  | required => rcases obtain scheme now own request with _ | ⟨_ | c, log⟩ <;> rfl

/-- an endpoint answers by attached credentials, whatever its authenticator is -/
theorem service_of_attached (ha : request.attached = some c) :
    endpoint.service scheme now own handlers request = some (handlers.answer endpoint (some c), []) := by
  by_cases hn : endpoint = .unneeded
  · rw [hn]
    rfl
  · have hfound : obtain scheme now own request = some ⟨some c, []⟩ := by
      rw [obtain, ha]
    rw [service_of_ne_unneeded hn, hfound]
    rfl

theorem service_of_not_attached (hn : endpoint ≠ .unneeded) (ha : request.attached = none) :
    endpoint.service scheme now own handlers request =
      (own.extract scheme now request.headers).map fun e => (handlers.answer endpoint e.credentials, e.log) := by
  have hfound : obtain scheme now own request = own.extract scheme now request.headers := by
    rw [obtain, ha]
  rw [service_of_ne_unneeded hn, hfound]

/-! ## a gate -/

theorem behind_of_not_found (h : gate.extract scheme now request.headers = some ⟨none, log⟩) :
    behind scheme now gate next request = some (rejection, log) := by
  rw [behind, h]
  rfl

theorem behind_of_found (h : gate.extract scheme now request.headers = some ⟨some c, log⟩) :
    behind scheme now gate next request =
      (next { request with attached := some c }).map fun answer => (answer.1, log ++ answer.2) := by
  rw [behind, h]
  show (next _).bind _ = _
  cases next { request with attached := some c } <;> rfl

theorem behind_of_brokenDown (h : gate.extract scheme now request.headers = none) :
    behind scheme now gate next request = none := by
  rw [behind, h]
  rfl

/-- behind a gate an endpoint answers by what the gate found, whatever was attached before -/
theorem behind_endpoint :
    behind scheme now gate (endpoint.service scheme now own handlers) request =
      (gate.extract scheme now request.headers).map fun e =>
        (e.credentials.elim rejection fun c => handlers.answer endpoint (some c), e.log) := by
  cases hx : gate.extract scheme now request.headers with
  | none => rw [behind_of_brokenDown hx, Option.map_none]
  | some e =>
    obtain ⟨found, log⟩ := e
    cases found with
    | none =>
      rw [behind_of_not_found hx]
      rfl
    | some c =>
      rw [behind_of_found hx, service_of_attached rfl, Option.map_some, List.append_nil]
      rfl

/-! ## an application -/

namespace Application

variable {app : Application}

theorem serve_of_unknown (h : ∀ route, ¬ request.IsFor route) :
    app.serve handlers scheme now request = some (notFound, []) := by
  have hroute : routeOf? request.target = none := by
    rw [Option.eq_none_iff_forall_ne_some]
    exact fun route hr => h route (routeOf?_eq_some_iff.1 hr)
  rw [serve, hroute]

theorem serve_of_gated (h : request.IsFor ⟨endpoint, true⟩) :
    app.serve handlers scheme now request =
      behind scheme now app.gate (endpoint.service scheme now app.own handlers) request := by
  rw [serve, routeOf?_eq_some_iff.2 h]
  rfl

theorem serve_of_open (h : request.IsFor ⟨endpoint, false⟩) :
    app.serve handlers scheme now request = endpoint.service scheme now app.own handlers request := by
  rw [serve, routeOf?_eq_some_iff.2 h]
  rfl

/-- the ways to an answer -/
inductive Answers (handlers : Handlers) (scheme : SignatureScheme) (now : Nat) (app : Application)
    (request : Request) : Response → List LogEvent → Prop where
  | unknown : (∀ route, ¬ request.IsFor route) → Answers handlers scheme now app request notFound []
  | stopped {endpoint : Endpoint} {log : List LogEvent} : request.IsFor ⟨endpoint, true⟩ →
      app.gate.extract scheme now request.headers = some ⟨none, log⟩ →
        Answers handlers scheme now app request rejection log
  | passed {endpoint : Endpoint} {c : Credentials} {log : List LogEvent} : request.IsFor ⟨endpoint, true⟩ →
      app.gate.extract scheme now request.headers = some ⟨some c, log⟩ →
        Answers handlers scheme now app request (handlers.answer endpoint (some c)) log
  | attached {endpoint : Endpoint} {c : Credentials} : request.IsFor ⟨endpoint, false⟩ → endpoint ≠ .unneeded →
      request.attached = some c → Answers handlers scheme now app request (handlers.answer endpoint (some c)) []
  | extracted {endpoint : Endpoint} {found : Option Credentials} {log : List LogEvent} :
      request.IsFor ⟨endpoint, false⟩ → endpoint ≠ .unneeded → request.attached = none →
      app.own.extract scheme now request.headers = some ⟨found, log⟩ →
        Answers handlers scheme now app request (handlers.answer endpoint found) log
  | unneeded : request.IsFor ⟨.unneeded, false⟩ → Answers handlers scheme now app request handlers.unneeded []

theorem serve_of_answers (h : Answers handlers scheme now app request response log) :
    app.serve handlers scheme now request = some (response, log) := by
  cases h with
  | unknown h => exact serve_of_unknown h
  | stopped h hfound =>
    rw [serve_of_gated h, behind_endpoint, hfound]
    rfl
  | passed h hfound =>
    rw [serve_of_gated h, behind_endpoint, hfound]
    rfl
  | attached h _ ha => rw [serve_of_open h, service_of_attached ha]
  | extracted h hn ha hfound =>
    rw [serve_of_open h, service_of_not_attached hn ha, hfound]
    rfl
  | unneeded h => rw [serve_of_open h, service_unneeded]

/-- the authenticators that are asked about a request -/
inductive Consults (app : Application) (request : Request) : Authenticator → Prop where
  | gate {endpoint : Endpoint} : request.IsFor ⟨endpoint, true⟩ → Consults app request app.gate
  | own {endpoint : Endpoint} : request.IsFor ⟨endpoint, false⟩ → endpoint ≠ .unneeded → request.attached = none →
      Consults app request app.own

/-- none of them breaks down -/
def NoBreakdown (scheme : SignatureScheme) (now : Nat) (app : Application) (request : Request) : Prop :=
  ∀ a, app.Consults request a → a.extract scheme now request.headers ≠ none

theorem noBreakdown_of_extract (hgate : app.gate.extract scheme now request.headers ≠ none)
    (hown : app.own.extract scheme now request.headers ≠ none) : app.NoBreakdown scheme now request := by
  intro a ha
  cases ha with
  | gate => exact hgate
  | own => exact hown

theorem exists_answers (h : app.NoBreakdown scheme now request) :
    ∃ response log, Answers handlers scheme now app request response log := by
  cases hroute : routeOf? request.target with
  | none =>
    refine ⟨_, _, .unknown fun route hr => ?_⟩
    rw [routeOf?_eq_some_iff.2 hr] at hroute
    cases hroute
  | some route =>
    obtain ⟨endpoint, gated⟩ := route
    have hfor : request.IsFor ⟨endpoint, gated⟩ := routeOf?_eq_some_iff.1 hroute
    cases gated with
    | true =>
      obtain ⟨⟨found, log⟩, hfound⟩ := Option.ne_none_iff_exists'.1 (h _ (.gate hfor))
      cases found with
      | none => exact ⟨_, _, .stopped hfor hfound⟩
      | some c => exact ⟨_, _, .passed hfor hfound⟩
    | false =>
      by_cases hn : endpoint = .unneeded
      · subst hn
        exact ⟨_, _, .unneeded hfor⟩
      cases ha : request.attached with
      | some c => exact ⟨_, _, .attached hfor hn ha⟩
      | none =>
        obtain ⟨⟨found, log⟩, hfound⟩ := Option.ne_none_iff_exists'.1 (h _ (.own hfor hn ha))
        exact ⟨_, _, .extracted hfor hn ha hfound⟩

theorem serve_eq_none_iff :
    app.serve handlers scheme now request = none ↔
      ∃ a, app.Consults request a ∧ a.extract scheme now request.headers = none := by
  constructor
  · intro h
    apply Classical.byContradiction
    intro hne
    have hcalm : app.NoBreakdown scheme now request := fun a ha hx => hne ⟨a, ha, hx⟩
    obtain ⟨response, log, hanswers⟩ : ∃ response log, Answers handlers scheme now app request response log :=
      exists_answers hcalm
    rw [serve_of_answers hanswers] at h
    cases h
  · rintro ⟨a, hconsults, hx⟩
    cases hconsults with
    | gate h =>
      rw [serve_of_gated h, behind_endpoint, hx]
      rfl
    | own h hn ha =>
      rw [serve_of_open h, service_of_not_attached hn ha, hx]
      rfl

theorem serve_eq_some_iff :
    app.serve handlers scheme now request = some (response, log) ↔
      Answers handlers scheme now app request response log := by
  refine ⟨fun h => ?_, serve_of_answers⟩
  have hcalm : app.NoBreakdown scheme now request := by
    intro a ha hx
    rw [serve_eq_none_iff.2 ⟨a, ha, hx⟩] at h
    cases h
  -- so there is a way to an answer, and it leads to this one
  obtain ⟨response', log', hanswers⟩ := exists_answers hcalm
  rw [serve_of_answers hanswers] at h
  cases h
  exact hanswers

end Application

end BearerCredentials.Http
