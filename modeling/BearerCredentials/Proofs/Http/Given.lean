import BearerCredentials.Proofs.Http.Rejection

/-!
# What handlers are given

Credentials reach a handler in two ways, from a gate or from the authenticator of the application, and a request may
have arrived with some attached.

* `serve_gated_alike`       behind a gate neither attached credentials nor the other authenticator matter;
* `Provenance`              for each kind of route, what the handler is given and what is logged;
* `provenance_of_serve`     every application keeps to this.
-/

namespace BearerCredentials.Http.Application

variable {handlers : Handlers} {scheme : SignatureScheme} {now : Nat} {app : Application} {endpoint : Endpoint}
  {request : Request}

theorem serve_gated_alike (h : request.IsFor ⟨endpoint, true⟩) (own : Authenticator) (attached : Option Credentials) :
    { app with own := own }.serve handlers scheme now { request with attached := attached } =
      app.serve handlers scheme now request := by
  have h' : { request with attached := attached }.IsFor ⟨endpoint, true⟩ := h
  rw [serve_of_gated h, serve_of_gated h', behind_endpoint, behind_endpoint]

/-- what a handler is given, and the events that are logged: one for every extraction -/
structure Provenance (handlers : Handlers) (scheme : SignatureScheme) (now : Nat) (app : Application)
    (request : Request) : Prop where
  /-- behind the gate it is given what the gate found; it is not reached where the gate found nothing -/
  gated : ∀ endpoint, request.IsFor ⟨endpoint, true⟩ → ∃ found event,
    app.gate.extract scheme now request.headers = some ⟨found, [event]⟩ ∧
      app.serve handlers scheme now request =
        some (found.elim rejection fun c => handlers.answer endpoint (some c), [event])
  /-- and it makes no difference what was attached before, or which authenticator the application has -/
  gatedAlike : ∀ endpoint, request.IsFor ⟨endpoint, true⟩ → ∀ own attached,
    { app with own := own }.serve handlers scheme now { request with attached := attached } =
      app.serve handlers scheme now request
  /-- elsewhere it is given what is attached -/
  attached : ∀ endpoint c, request.IsFor ⟨endpoint, false⟩ → request.attached = some c →
    app.serve handlers scheme now request = some (handlers.answer endpoint (some c), [])
  /-- or else what the authenticator of the application finds -/
  extracted : ∀ endpoint, request.IsFor ⟨endpoint, false⟩ → endpoint ≠ .unneeded → request.attached = none →
    ∃ found event, app.own.extract scheme now request.headers = some ⟨found, [event]⟩ ∧
      app.serve handlers scheme now request = some (handlers.answer endpoint found, [event])
  unneeded : request.IsFor ⟨.unneeded, false⟩ →
    app.serve handlers scheme now request = some (handlers.unneeded, [])
  unknown : (∀ route, ¬ request.IsFor route) → app.serve handlers scheme now request = some (notFound, [])

theorem exists_extraction {a : Authenticator} (h : app.NoBreakdown scheme now request) (ha : app.Consults request a) :
    ∃ found event, a.extract scheme now request.headers = some ⟨found, [event]⟩ := by
  obtain ⟨⟨found, log⟩, hx⟩ := Option.ne_none_iff_exists'.1 (h a ha)
  obtain ⟨event, rfl⟩ := Authenticator.exists_event_of_extract hx
  exact ⟨found, event, hx⟩

/-- **A handler is given the credentials that the gate before it found**, or without a gate the attached ones or those
that the authenticator of its application found. A request is looked at once, or not at all. -/
theorem provenance_of_serve (handlers : Handlers) (scheme : SignatureScheme) (now : Nat) (app : Application)
    (request : Request) (h : app.NoBreakdown scheme now request) : Provenance handlers scheme now app request where
  gated endpoint hfor := by
    obtain ⟨found, event, hx⟩ := exists_extraction h (.gate hfor)
    refine ⟨found, event, hx, ?_⟩
    rw [serve_of_gated hfor, behind_endpoint, hx]
    rfl
  gatedAlike endpoint hfor own attached := serve_gated_alike hfor own attached
  attached endpoint c hfor ha := by
    rw [serve_of_open hfor, service_of_attached ha]
  extracted endpoint hfor hn ha := by
    obtain ⟨found, event, hx⟩ := exists_extraction h (.own hfor hn ha)
    exact ⟨found, event, hx, serve_of_answers (.extracted hfor hn ha hx)⟩
  unneeded hfor := serve_of_answers (.unneeded hfor)
  unknown hunknown := serve_of_answers (.unknown hunknown)

/-- attached credentials get nobody through a gate, and are replaced behind it -/
theorem serve_forged :
    ∃ headers c event,
      Authenticator.extract standardScheme (.ofSettings Authenticator.edgeSettings) 1700000030 headers =
        some ⟨some c, [event]⟩ ∧
      ∀ handlers forged,
        keyAtGate.serve handlers standardScheme 1700000030 ⟨"/mw/auth", headers, some forged⟩ =
          some (handlers.required c, [event]) ∧
        keyOfOwn.serve handlers standardScheme 1700000030 ⟨"/mw/auth", headers, some forged⟩ =
          some (rejection, [.refused (.key .absent)]) := by
  obtain ⟨headers, c, -, hfound⟩ := Authenticator.exists_accepted_edgePayload .sha384
  have hcalm : ∀ forged, keyAtGate.NoBreakdown standardScheme 1700000030 ⟨"/mw/auth", headers, some forged⟩ ∧
      keyOfOwn.NoBreakdown standardScheme 1700000030 ⟨"/mw/auth", headers, some forged⟩ := by
    intro forged
    apply noBreakdown_with_one_key
    rw [hfound]
    nofun
  have hfor : pathOf "/mw/auth" = Route.path ⟨.required, true⟩ := by decide
  refine ⟨headers, c, _, hfound, fun handlers forged => ⟨?_, ?_⟩⟩
  · obtain ⟨found, event, hx, hserve⟩ :=
      (provenance_of_serve handlers standardScheme 1700000030 keyAtGate _ (hcalm forged).1).gated .required hfor
    rw [keyAtGate, hfound] at hx
    cases hx
    exact hserve
  · obtain ⟨found, event, hx, hserve⟩ :=
      (provenance_of_serve handlers standardScheme 1700000030 keyOfOwn _ (hcalm forged).2).gated .required hfor
    rw [keyOfOwn, extract_without_key] at hx
    cases hx
    exact hserve

end BearerCredentials.Http.Application
