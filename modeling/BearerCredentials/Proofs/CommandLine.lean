import BearerCredentials.CommandLine
import BearerCredentials.Proofs.Authenticator.Issued
import BearerCredentials.Proofs.Authenticator.Stages
import BearerCredentials.Proofs.Authorization
import BearerCredentials.Proofs.Credentials.Text
import BearerCredentials.Proofs.Settings.Environment

/-!
# The command line and the header

* `headersOf_between`     blanks around a value do not matter to the headers that the command makes;
* `credentials_trim`      nor do the blanks in the value itself matter to its credentials;
* `run_eq_outcomeOf`      how the command ends depends on the credentials only;
* `run_agrees`            so it ends as a request with the value in its header is answered.
-/

namespace BearerCredentials

theorem Http.IsVisibleText.trim {value : String} (h : IsVisibleText value) : IsVisibleText (Text.trim value) :=
  fun c hc => h c ((Text.trimsTo_trim _).isInfix.subset hc)

/-! ## the value in a header -/

namespace Authorization

/-- the one header of a value -/
theorem exists_headers_of_visible {value : String} (h : Http.IsVisibleText value) :
    ∃ headers, Http.Headers.ofList [(headerName, utf8 value)] = .ok headers ∧
      ∀ requireScheme, ofHeaders requireScheme headers = parse requireScheme value := by
  obtain ⟨headers, hlist, hfirst⟩ := exists_headers (Http.isValue_utf8 h)
  refine ⟨headers, hlist, fun requireScheme => ?_⟩
  unfold ofHeaders
  rw [hfirst]
  simp only [Http.visible?_utf8 h]

end Authorization

namespace CommandLine

open Authenticator (ofSettings)

variable {scheme : SignatureScheme} {now : Nat} {value before after : String} {i : Invocation} {s : Settings}

theorem headersOf_between {headers : Http.Headers} (hbefore : Text.allBlank before = true)
    (hafter : Text.allBlank after = true)
    (hlist : Http.Headers.ofList [(Authorization.headerName, utf8 (Text.trim value))] = .ok headers) :
    headersOf (before ++ value ++ after) = headers := by
  unfold headersOf
  rw [Text.trim_between hbefore hafter, hlist]

/-- **The credentials of a value are those of the value without the blanks around it.** -/
theorem credentials_trim {a : Authenticator} {headers headers' : Http.Headers}
    (h : ∀ requireScheme, Authorization.ofHeaders requireScheme headers = Authorization.parse requireScheme value)
    (h' : ∀ requireScheme, Authorization.ofHeaders requireScheme headers' =
      Authorization.parse requireScheme (Text.trim value)) :
    (a.extract scheme now headers').map Extraction.credentials =
      (a.extract scheme now headers).map Extraction.credentials := by
  rcases Authorization.parse_trim a.requireBearerScheme value with he | ⟨ht, he⟩
  · rw [Authenticator.extract_congr ((h' _).trans (he.trans (h _).symm))]
  · -- the scheme alone is taken for a token, which it is not
    have hbare : ∀ token, Authorization.ofHeaders a.requireBearerScheme headers' = .ok token →
        Token.ofText? token = none := by
      intro token htoken
      rw [h', ht] at htoken
      cases hr : a.requireBearerScheme with
      | true =>
        rw [hr] at htoken
        cases htoken
      | false =>
        rw [hr] at htoken
        cases htoken
        decide
    have hnone : ∀ token, Authorization.ofHeaders a.requireBearerScheme headers = .ok token →
        Token.ofText? token = none := by
      intro token htoken
      rw [h, he] at htoken
      cases htoken
    obtain ⟨log, hx⟩ : ∃ log, a.extract scheme now headers = some ⟨none, log⟩ :=
      Authenticator.exists_extract_of_no_token hnone
    obtain ⟨log', hx'⟩ : ∃ log, a.extract scheme now headers' = some ⟨none, log⟩ :=
      Authenticator.exists_extract_of_no_token hbare
    rw [hx, hx']
    rfl

/-! ## the command -/

/-- how a command ends with the credentials that were found, or with a breakdown -/
def outcomeOf : Option (Option Credentials) → Outcome
  | none => { exitCode := brokenDown }
  | some none => { exitCode := noCredentials }
  | some (some c) => { exitCode := success, output := c.json.pretty ++ "\n" }

/-- a command is given a value: as its first argument, or on standard input -/
inductive Given : Invocation → String → Prop
  | argument {i : Invocation} {value : String} {rest : List String} :
      i.arguments = value :: rest → value ≠ "-" → Given i value
  | input {i : Invocation} {value : String} :
      (i.arguments = [] ∨ ∃ rest, i.arguments = "-" :: rest) → i.input = utf8 value → Given i value

/-- a dash stands for standard input -/
theorem given_dash (value : String) (env : Environment) : Given ⟨["-"], utf8 value, env⟩ value :=
  .input (Or.inr ⟨[], rfl⟩) rfl

theorem valueOf?_of_given (h : Given i value) : valueOf? i = some value := by
  unfold valueOf?
  cases h with
  | argument ha hne => rw [ha]; exact if_neg hne
  | input ha hin =>
    rcases ha with ha | ⟨rest, ha⟩
    · rw [ha, hin]
      exact ofUtf8?_utf8 value
    · rw [ha, hin]
      exact ofUtf8?_utf8 value

theorem run_of_no_settings {e : EnvironmentError} (h : Settings.ofEnvironment i.environment = .error e) :
    run scheme now i = { exitCode := badInvocation } := by
  unfold run
  rw [h]

/-- **How a command ends depends on the credentials of its value only.** -/
theorem run_eq_outcomeOf (hs : Settings.ofEnvironment i.environment = .ok s) (hi : Given i value) :
    run scheme now i =
      outcomeOf (((ofSettings s).extract scheme now (headersOf value)).map Extraction.credentials) := by
  unfold run
  rw [hs]
  simp only [valueOf?_of_given hi]
  cases (ofSettings s).extract scheme now (headersOf value) with
  | none => rfl
  | some e =>
    obtain ⟨credentials, log⟩ := e
    cases credentials <;> rfl

/-- what is written of credentials is read as those credentials -/
theorem read_output (c : Credentials) :
    Json.read (c.json.pretty ++ "\n") = .ok c.json ∧ Credentials.read (c.json.pretty ++ "\n") = .ok c := by
  have h : Json.read (c.json.pretty ++ "\n") = .ok c.json :=
    Json.read_pretty_newline Credentials.exact_written Credentials.depth_written
  exact ⟨h, Credentials.read_of_json h⟩

/-- how a command ends whose value is answered as an extraction, unless that breaks down -/
structure Answers (outcome : Outcome) (extraction : Option Extraction) : Prop where
  accepted : ∀ c log, extraction = some ⟨some c, log⟩ →
    outcome.exitCode = 0 ∧ Json.read outcome.output = .ok c.json ∧ Credentials.read outcome.output = .ok c
  refused : (¬ ∃ c log, extraction = some ⟨some c, log⟩) → outcome.exitCode = 1 ∧ outcome.output = ""

theorem answers_outcomeOf {extraction : Option Extraction} (h : extraction ≠ none) :
    Answers (outcomeOf (extraction.map Extraction.credentials)) extraction := by
  obtain ⟨⟨found, log⟩, rfl⟩ := Option.ne_none_iff_exists'.1 h
  cases found with
  | none => exact ⟨nofun, fun _ => ⟨rfl, rfl⟩⟩
  | some c =>
    refine ⟨?_, fun hno => absurd ⟨c, log, rfl⟩ hno⟩
    rintro c' log' ⟨⟩
    exact ⟨rfl, read_output c⟩

theorem Answers.exitCode_eq_zero_iff {outcome : Outcome} {extraction : Option Extraction}
    (h : Answers outcome extraction) : outcome.exitCode = 0 ↔ ∃ c log, extraction = some ⟨some c, log⟩ := by
  constructor
  · intro h0
    by_contra hno
    rw [(h.refused hno).1] at h0
    exact absurd h0 (by decide)
  · rintro ⟨c, log, hx⟩
    exact (h.accepted c log hx).1

theorem Answers.exitCode_ne_two {outcome : Outcome} {extraction : Option Extraction} (h : Answers outcome extraction) :
    outcome.exitCode ≠ 2 := by
  by_cases hx : ∃ c log, extraction = some ⟨some c, log⟩
  · rw [h.exitCode_eq_zero_iff.2 hx]
    decide
  · rw [(h.refused hx).1]
    decide

/-- **The command agrees with the header.** Whatever blanks stand around a value and in whichever way it is given, the
command ends in one way: with 2 if the environment has no settings, and otherwise as a request with the value in its
header is answered. -/
theorem run_agrees (scheme : SignatureScheme) (now : Nat) (env : Environment) {value : String}
    (hv : Http.IsVisibleText value) :
    ∃ headers, Http.Headers.ofList [(Authorization.headerName, utf8 value)] = .ok headers ∧
      ((∀ s, Settings.ofEnvironment env = .ok s → (ofSettings s).extract scheme now headers ≠ none) →
        ∃ outcome : Outcome,
          (∀ before after i, Text.allBlank before = true → Text.allBlank after = true →
            Given i (before ++ value ++ after) → i.environment = env → run scheme now i = outcome) ∧
          (outcome.exitCode = 2 ↔ ∃ e, Settings.ofEnvironment env = .error e) ∧
          ∀ s, Settings.ofEnvironment env = .ok s →
            (outcome.exitCode = 0 ↔ ∃ c log, (ofSettings s).extract scheme now headers = some ⟨some c, log⟩) ∧
              Answers outcome ((ofSettings s).extract scheme now headers)) := by
  obtain ⟨headers, hlist, hparse⟩ := Authorization.exists_headers_of_visible hv
  obtain ⟨headers', hlist', hparse'⟩ := Authorization.exists_headers_of_visible hv.trim
  refine ⟨headers, hlist, fun hdown => ?_⟩
  cases hs : Settings.ofEnvironment env with
  | error e =>
    refine ⟨{ exitCode := badInvocation }, ?_, ⟨fun _ => ⟨e, rfl⟩, fun _ => rfl⟩, nofun⟩
    rintro before after i - - - rfl
    exact run_of_no_settings hs
  | ok s =>
    have hx := hdown s hs
    have ha := answers_outcomeOf hx
    refine ⟨outcomeOf (((ofSettings s).extract scheme now headers).map Extraction.credentials), ?_, ?_, ?_⟩
    · rintro before after i hbefore hafter hi rfl
      rw [run_eq_outcomeOf hs hi, headersOf_between hbefore hafter hlist', credentials_trim hparse hparse']
    · exact ⟨fun h => absurd h ha.exitCode_ne_two, nofun⟩
    · rintro s' ⟨⟩
      exact ⟨ha.exitCode_eq_zero_iff, ha⟩

/-! ## a value that is accepted -/

/-- a token that is valid at one instant only, after the scheme -/
def edgeValue : String :=
  Authorization.bearerScheme ++ (Token.issue .sha256 (utf8 "key") Authenticator.edgePayload).text

def edgeEnvironment : Environment := Authenticator.edgeSettings.toEnvironment

theorem isVisibleText_edgeValue : Http.IsVisibleText edgeValue :=
  Authorization.isVisibleText_bearerScheme.append (Token.ofSymbols_issue _ _ _).isVisibleText

theorem ofEnvironment_edgeEnvironment : Settings.ofEnvironment edgeEnvironment = .ok Authenticator.edgeSettings := by
  refine Settings.ofEnvironment_toEnvironment ?_ nofun (by decide) (by decide)
  rintro key ⟨⟩
  decide

theorem run_edgeValue :
    Http.IsVisibleText edgeValue ∧
      ∃ headers, Http.Headers.ofList [(Authorization.headerName, utf8 edgeValue)] = .ok headers ∧
        (∀ s, Settings.ofEnvironment edgeEnvironment = .ok s →
          (ofSettings s).extract standardScheme 1700000030 headers ≠ none) ∧
        ∃ outcome c, run standardScheme 1700000030 ⟨["\n" ++ edgeValue ++ " "], [], edgeEnvironment⟩ = outcome ∧
          run standardScheme 1700000030 ⟨["-"], utf8 ("" ++ edgeValue ++ "\n"), edgeEnvironment⟩ = outcome ∧
          outcome.exitCode = 0 ∧ Credentials.read outcome.output = .ok c := by
  obtain ⟨headers, hlist, h⟩ := run_agrees standardScheme 1700000030 edgeEnvironment isVisibleText_edgeValue
  obtain ⟨headers', c, hlist', hx⟩ := Authenticator.exists_accepted_edgePayload .sha256
  obtain rfl : headers = headers' := Except.ok.inj (hlist.symm.trans hlist')
  have hdown : ∀ s, Settings.ofEnvironment edgeEnvironment = .ok s →
      (ofSettings s).extract standardScheme 1700000030 headers ≠ none := by
    intro s hs
    obtain rfl := Except.ok.inj (ofEnvironment_edgeEnvironment.symm.trans hs)
    rw [hx]
    nofun
  obtain ⟨outcome, hrun, -, hanswers⟩ := h hdown
  obtain ⟨h0, -, hread⟩ := (hanswers _ ofEnvironment_edgeEnvironment).2.accepted c _ hx
  have hne (value : String) : "\n" ++ value ++ " " ≠ "-" := by
    intro e
    have hhead := congrArg (fun s => s.toList.head?) e
    simp at hhead
  have hargument : Given ⟨["\n" ++ edgeValue ++ " "], [], edgeEnvironment⟩ ("\n" ++ edgeValue ++ " ") :=
    .argument rfl (hne edgeValue)
  have hinput : Given ⟨["-"], utf8 ("" ++ edgeValue ++ "\n"), edgeEnvironment⟩ ("" ++ edgeValue ++ "\n") :=
    given_dash _ _
  exact ⟨isVisibleText_edgeValue, headers, hlist, hdown, outcome, c,
    hrun "\n" " " _ (by decide) (by decide) hargument rfl, hrun "" "\n" _ (by decide) (by decide) hinput rfl, h0, hread⟩

end CommandLine

end BearerCredentials
