import BearerCredentials.Proofs.Authenticator.Issued
import BearerCredentials.Proofs.Http.Service

/-!
# Which requests are rejected

* `Handlers.Succeed`          handlers that answer 200 to whatever they are given;
* `Application.Rejects`       a gate that finds nothing, or nothing where credentials are required;
* `answers_cases`             with such handlers an answer is the rejection, a 200 or the answer to unknown paths;
* `unauthorized_iff_rejects`  who is answered 401, and that no two such answers differ.
-/

namespace BearerCredentials

def Authenticator.FindsNothing (scheme : SignatureScheme) (a : Authenticator) (now : Nat)
    (headers : Http.Headers) : Prop :=
  ∃ log, a.extract scheme now headers = some ⟨none, log⟩

namespace Http

variable {handlers : Handlers} {scheme : SignatureScheme} {now : Nat} {app : Application} {endpoint : Endpoint}
  {route : Route} {request : Request} {found : Option Credentials} {response : Response} {log : List LogEvent}

structure Handlers.Succeed (handlers : Handlers) : Prop where
  required : ∀ c, (handlers.required c).status = 200
  asked : ∀ found, (handlers.asked found).status = 200
  unneeded : handlers.unneeded.status = 200

theorem Handlers.succeed_showing : Handlers.showing.Succeed where
  required _ := rfl
  asked _ := rfl
  unneeded := rfl

/-- with such handlers only a request without credentials is rejected, and only where they are required -/
theorem Handlers.Succeed.status_answer (h : handlers.Succeed) (hn : ¬ (endpoint = .required ∧ found = none)) :
    (handlers.answer endpoint found).status = 200 := by
  cases endpoint with
  | required =>
    cases found with
    | none => exact absurd ⟨rfl, rfl⟩ hn
    | some c => exact h.required c
  | asked => exact h.asked found
  | unneeded => exact h.unneeded

namespace Application

inductive Rejects (scheme : SignatureScheme) (now : Nat) (app : Application) (request : Request) : Prop where
  | atGate {endpoint : Endpoint} : request.IsFor ⟨endpoint, true⟩ →
      app.gate.FindsNothing scheme now request.headers → Rejects scheme now app request
  | atEndpoint : request.IsFor ⟨.required, false⟩ → request.attached = none →
      app.own.FindsNothing scheme now request.headers → Rejects scheme now app request

theorem serve_of_rejects (h : app.Rejects scheme now request) :
    ∃ log, app.serve handlers scheme now request = some (rejection, log) := by
  cases h with
  | atGate hfor hnothing =>
    obtain ⟨log, hx⟩ := hnothing
    exact ⟨log, serve_of_answers (.stopped hfor hx)⟩
  | atEndpoint hfor ha hnothing =>
    obtain ⟨log, hx⟩ := hnothing
    exact ⟨log, serve_of_answers (.extracted hfor nofun ha hx)⟩

theorem answers_cases (hs : handlers.Succeed) (h : Answers handlers scheme now app request response log) :
    (response = rejection ∧ app.Rejects scheme now request) ∨ response.status = 200 ∨
      (response = notFound ∧ ∀ route, ¬ request.IsFor route) := by
  cases h with
  | unknown h => exact Or.inr (Or.inr ⟨rfl, h⟩)
  | stopped h hx => exact Or.inl ⟨rfl, .atGate h ⟨_, hx⟩⟩
  | passed h hx => exact Or.inr (Or.inl (hs.status_answer (by simp)))
  | attached h hn ha => exact Or.inr (Or.inl (hs.status_answer (by simp)))
  | @extracted endpoint found _ h hn ha hx =>
    by_cases hr : endpoint = .required ∧ found = none
    · obtain ⟨rfl, rfl⟩ := hr
      exact Or.inl ⟨rfl, .atEndpoint h ha ⟨_, hx⟩⟩
    · exact Or.inr (Or.inl (hs.status_answer hr))
  | unneeded h => exact Or.inr (Or.inl hs.unneeded)

theorem rejected_of_status (hs : handlers.Succeed)
    (h : app.serve handlers scheme now request = some (response, log)) (hstatus : response.status = 401) :
    response = rejection ∧ app.Rejects scheme now request := by
  rcases answers_cases hs (serve_eq_some_iff.1 h) with hr | h200 | ⟨rfl, -⟩
  · exact hr
  · rw [h200] at hstatus
    cases hstatus
  · cases hstatus

theorem status_eq_unauthorized_iff (hs : handlers.Succeed)
    (h : app.serve handlers scheme now request = some (response, log)) :
    response.status = 401 ↔ app.Rejects scheme now request := by
  refine ⟨fun hstatus => (rejected_of_status hs h hstatus).2, fun hr => ?_⟩
  obtain ⟨log', hserve⟩ : ∃ log, app.serve handlers scheme now request = some (rejection, log) := serve_of_rejects hr
  rw [h] at hserve
  cases hserve
  rfl

theorem status_of_not_rejects (hs : handlers.Succeed)
    (h : app.serve handlers scheme now request = some (response, log)) (hfor : request.IsFor route)
    (hr : ¬ app.Rejects scheme now request) : response.status = 200 := by
  rcases answers_cases hs (serve_eq_some_iff.1 h) with ⟨-, hr'⟩ | h200 | ⟨-, hunknown⟩
  · exact absurd hr' hr
  · exact h200
  · exact absurd hfor (hunknown route)

/-- **A request is rejected exactly where a gate finds nothing, or where nothing is found and credentials are
required.** Any other request for a path that is known is answered 200, and all rejections are the same response:
nothing about the cause, the path or the settings can be read off. -/
theorem unauthorized_iff_rejects :
    (∀ scheme now (app : Application) request, app.NoBreakdown scheme now request →
      ∃ response log, app.respond scheme now request = some (response, log) ∧
        (response.status = 401 ↔ app.Rejects scheme now request) ∧
        ∀ route, request.IsFor route → ¬ app.Rejects scheme now request → response.status = 200) ∧
      ∀ scheme scheme' now now' (app app' : Application) request request' response response' log log',
        app.respond scheme now request = some (response, log) →
        app'.respond scheme' now' request' = some (response', log') →
        response.status = 401 → response'.status = 401 → response = response' := by
  constructor
  · intro scheme now app request hcalm
    obtain ⟨response, log, hanswers⟩ : ∃ response log, Answers .showing scheme now app request response log :=
      exists_answers hcalm
    have hserve : app.respond scheme now request = some (response, log) := serve_of_answers hanswers
    refine ⟨response, log, hserve, status_eq_unauthorized_iff Handlers.succeed_showing hserve, ?_⟩
    exact fun route hfor hr => status_of_not_rejects Handlers.succeed_showing hserve hfor hr
  · intro scheme scheme' now now' app app' request request' response response' log log' h h' hs hs'
    have hr : response = rejection := (rejected_of_status Handlers.succeed_showing h hs).1
    have hr' : response' = rejection := (rejected_of_status Handlers.succeed_showing h' hs').1
    rw [hr, hr']

/-! ## applications with one key -/

/-- an application with a key at its gate -/
def keyAtGate : Application := ⟨.ofSettings {}, .ofSettings Authenticator.edgeSettings⟩

/-- an application with a key of its own -/
def keyOfOwn : Application := ⟨.ofSettings Authenticator.edgeSettings, .ofSettings {}⟩

theorem extract_without_key (now : Nat) (headers : Headers) :
    Authenticator.extract standardScheme (.ofSettings {}) now headers = some ⟨none, [.refused (.key .absent)]⟩ :=
  Authenticator.extract_of_refused (Authenticator.authenticate_of_no_key rfl)

theorem noBreakdown_with_one_key
    (h : Authenticator.extract standardScheme (.ofSettings Authenticator.edgeSettings) now request.headers ≠ none) :
    keyAtGate.NoBreakdown standardScheme now request ∧ keyOfOwn.NoBreakdown standardScheme now request := by
  have h' : Authenticator.extract standardScheme (.ofSettings {}) now request.headers ≠ none := by
    rw [extract_without_key]
    nofun
  exact ⟨noBreakdown_of_extract h h', noBreakdown_of_extract h' h⟩

theorem answered_with_one_key :
    ∃ headers accepted rejected rejected' log log' log'',
      keyAtGate.respond standardScheme 1700000030 ⟨"/mw/auth?x=1", headers, none⟩ = some (accepted, log) ∧
      keyAtGate.respond standardScheme 1700000030 ⟨"/auth", headers, none⟩ = some (rejected, log') ∧
      keyOfOwn.respond standardScheme 1700000030 ⟨"/mw/open", headers, none⟩ = some (rejected', log'') ∧
      accepted.status = 200 ∧ rejected.status = 401 ∧ rejected' = rejected := by
  obtain ⟨headers, c, -, hfound⟩ := Authenticator.exists_accepted_edgePayload .sha384
  have hnothing : Authenticator.FindsNothing standardScheme (.ofSettings {}) 1700000030 headers :=
    ⟨_, extract_without_key _ _⟩
  have hcalm : ∀ target, keyAtGate.NoBreakdown standardScheme 1700000030 ⟨target, headers, none⟩ ∧
      keyOfOwn.NoBreakdown standardScheme 1700000030 ⟨target, headers, none⟩ := by
    intro target
    apply noBreakdown_with_one_key
    rw [hfound]
    nofun
  obtain ⟨hanswered, hsame⟩ := unauthorized_iff_rejects
  obtain ⟨accepted, log, haccepted, -, h200⟩ :=
    hanswered standardScheme 1700000030 keyAtGate ⟨"/mw/auth?x=1", headers, none⟩ (hcalm _).1
  obtain ⟨rejected, log', hrejected, h401, -⟩ :=
    hanswered standardScheme 1700000030 keyAtGate ⟨"/auth", headers, none⟩ (hcalm _).1
  obtain ⟨rejected', log'', hrejected', h401', -⟩ :=
    hanswered standardScheme 1700000030 keyOfOwn ⟨"/mw/open", headers, none⟩ (hcalm _).2
  have hfor : pathOf "/mw/auth?x=1" = Route.path ⟨.required, true⟩ := by decide
  have hfor' : pathOf "/auth" = Route.path ⟨.required, false⟩ := by decide
  have hfor'' : pathOf "/mw/open" = Route.path ⟨.unneeded, true⟩ := by decide
  have hpasses : ¬ keyAtGate.Rejects standardScheme 1700000030 ⟨"/mw/auth?x=1", headers, none⟩ := by
    intro hr
    cases hr with
    | atGate _ hgate =>
      obtain ⟨log, hx⟩ := hgate
      rw [keyAtGate, hfound] at hx
      cases hx
    | atEndpoint hopen =>
      have heq : Route.path ⟨.required, true⟩ = Route.path ⟨.required, false⟩ := hfor.symm.trans hopen
      exact absurd heq (by decide)
  have hstatus : rejected.status = 401 := h401.2 (.atEndpoint hfor' rfl hnothing)
  have hstatus' : rejected'.status = 401 := h401'.2 (.atGate hfor'' hnothing)
  exact ⟨headers, accepted, rejected, rejected', log, log', log'', haccepted, hrejected, hrejected',
    h200 _ hfor hpasses, hstatus,
    hsame _ _ _ _ _ _ _ _ _ _ _ _ hrejected' hrejected hstatus' hstatus⟩

end Application

end Http

end BearerCredentials
