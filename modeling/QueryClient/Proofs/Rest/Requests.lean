import Mathlib.Data.Nat.Notation
import QueryClient.Rest.Transport

/-!
# What is sent, and what an answer means

A request cannot be made when a value that it would carry in a header is not legal there, or when its
address cannot be read; and it cannot be sent when its address cannot be. Otherwise it carries the token
and the app id exactly if they are there and not empty, and says the same for both actions. An answer
means a result, or one of four failures, by its status and its body.

* `RestTransport.Illegal`, `RestTransport.headers_eq_error_iff`: headers that are refused before a token
  is fetched.
* `RestTransport.Unsent`, `RestTransport.request_cases`: **why nothing is sent,** once the fetch ended.
* `RestTransport.Carries`, `RestTransport.carries`: **what a request carries.**
* `Rest.Meaning`, `Rest.meaning`: **what an answer means.**
-/

namespace QueryClient

namespace Rest

/-! ## Values of headers -/

/-- An empty value is left out, and any other has to be legal. -/
def Refuses (value : Option String) : Prop := ∃ v, value = some v ∧ v ≠ "" ∧ isLegalHeader v = false

/-- The value that is sent. -/
def sentValue? (value : Option String) : Option String := value.filter fun v => v ≠ ""

theorem isLegalHeader_append (s t : String) :
    isLegalHeader (s ++ t) = (isLegalHeader s && isLegalHeader t) := by
  simp only [isLegalHeader, String.toList_append, List.all_append]

theorem header_eq_error_iff {name value : String} {e : Error} :
    header name value = .error e ↔ isLegalHeader value = false ∧ e = .invalidHeader := by
  unfold header
  cases isLegalHeader value with
  | true => simp
  | false => simpa using eq_comm

theorem optionalHeader_eq_error_iff {name : String} {value : Option String} {e : Error} :
    optionalHeader name value = .error e ↔ Refuses value ∧ e = .invalidHeader := by
  cases value with
  | none => simp [optionalHeader, Refuses]
  | some v =>
    rw [optionalHeader]
    split
    · simp_all [Refuses]
    · rw [header_eq_error_iff]
      simp_all [Refuses]

theorem optionalHeader_eq_ok {name : String} {value : Option String} {found : List (String × String)}
    (h : optionalHeader name value = .ok found) :
    ¬ Refuses value ∧ found = (sentValue? value).toList.map fun v => (name, v) := by
  refine ⟨fun hrefuses => ?_, ?_⟩
  · rw [optionalHeader_eq_error_iff.2 ⟨hrefuses, rfl⟩] at h
    cases h
  · cases value with
    | none => simp_all [optionalHeader, sentValue?]
    | some v =>
      rw [optionalHeader] at h
      split at h
      · simp_all [sentValue?]
      · unfold header at h
        split at h
        · rename_i hempty _
          have hv : v ≠ "" := by simpa using hempty
          rw [← Except.ok.inj h, sentValue?, Option.filter_some_pos (by simpa using hv)]
          rfl
        · cases h

/-! ## Answers -/

/-- The status of an answer that has a body to look at. -/
def Success (status : ℕ) : Prop := 200 ≤ status ∧ status ≤ 299

theorem isAccepted_iff {status : ℕ} : isAccepted status = true ↔ Success status := by
  simp only [isAccepted, Success, Bool.and_eq_true, decide_eq_true_eq]
  omega

/-- **What an answer means,** by its status and its body. -/
structure Meaning (answer : HttpAnswer) (result : Except Error OperationResult) : Prop where
  /-- The token is refused by one status alone, -/
  unauthorized : (∃ e, result = .error e ∧ e.code = .unauthorized) ↔
    ∃ body, answer = .answered 401 body
  /-- every other status that is no success is a failure of the network, as is no answer, -/
  network : (∃ e, result = .error e ∧ e.code = .network) ↔ answer = .dropped ∨
    ∃ status body, answer = .answered status body ∧ status ≠ 401 ∧ ¬ Success status
  /-- a success whose body cannot be read is reported as such, -/
  decode : (∃ e, result = .error e ∧ e.code = .decode) ↔
    ∃ status body, answer = .answered status body ∧ Success status ∧ readBody? body = none
  /-- and any other is what its body says. -/
  ok : ∀ r, result = .ok r ↔
    ∃ status body, answer = .answered status body ∧ Success status ∧ readBody? body = some r
  /-- There is no other failure. -/
  failed : ∀ e, result = .error e → e.code = .unauthorized ∨ e.code = .network ∨ e.code = .decode

theorem exists_answered_iff {status : ℕ} {body : List UInt8} {P : ℕ → List UInt8 → Prop} :
    (∃ n bytes, HttpAnswer.answered status body = .answered n bytes ∧ P n bytes) ↔ P status body := by
  constructor
  · rintro ⟨n, bytes, heq, h⟩
    cases heq
    exact h
  · exact fun h => ⟨status, body, rfl, h⟩

/-- **An answer means one thing.** -/
theorem meaning (action : Action) (url : Web.Url) (answer : HttpAnswer) :
    Meaning answer (interpret action url answer) := by
  cases answer with
  | dropped =>
    exact ⟨by simp [interpret, Error.code], by simp [interpret, Error.code],
      by simp [interpret, Error.code], by simp [interpret], by simp [interpret, Error.code]⟩
  | answered status body =>
    -- an accepted answer has its body to say more
    have hstatus : isAccepted status = true ↔ Success status := isAccepted_iff
    simp only [interpret]
    split
    · rename_i h401
      subst h401
      have hnot : ¬ Success 401 := by simp [Success]
      refine ⟨?_, ?_, ?_, fun r => ?_, ?_⟩ <;> simp [Error.code, hnot]
    · rename_i h401
      cases haccepted : isAccepted status with
      | false =>
        have hnot : ¬ Success status := by simpa [haccepted] using hstatus
        refine ⟨?_, ?_, ?_, fun r => ?_, ?_⟩ <;> simp [Error.code, hnot, h401]
      | true =>
        have hsuccess := hstatus.1 haccepted
        cases hbody : readBody? body with
        | none =>
          refine ⟨by simp [Error.code, h401], by simp [Error.code, hsuccess], ?_, by simp [hbody],
            by simp [Error.code]⟩
          rw [exists_answered_iff]
          simp [Error.code, hsuccess, hbody]
        | some found =>
          refine ⟨by simp [h401], by simp [hsuccess], by simp [hbody], fun r => ?_, by simp⟩
          rw [exists_answered_iff]
          simp [hsuccess, hbody]

end Rest

/-- The value of a header that is sent. -/
def HttpRequest.header? (request : HttpRequest) (name : String) : Option String :=
  (request.headers.find? fun h => h.1 = name).map (·.2)

namespace RestTransport

open Rest

variable {t : RestTransport} {action : Action} {operation : String} {vars : Struct}
variable {token : Option String} {request : HttpRequest} {e : Error} {outcome : TokenOutcome}

/-! ## Headers that are known before a token is fetched -/

/-- The location or the app id is refused as a header. -/
def Illegal (t : RestTransport) : Prop :=
  isLegalHeader t.options.connector.location = false ∨ Refuses t.options.appId

/-- The headers of a transport that has no illegal ones. -/
def fixedHeaders (t : RestTransport) : List (String × String) :=
  [("content-type", "application/json"), ("x-goog-api-client", clientHeader t.generated),
    ("x-goog-request-params", "location=" ++ t.options.connector.location ++ "&frontend=data")] ++
  (sentValue? t.options.appId).toList.map fun v => ("x-firebase-gmpid", v)

theorem isLegalHeader_client (generated : Bool) : isLegalHeader (clientHeader generated) = true := by
  cases generated <;> decide

theorem isLegalHeader_params (location : String) :
    isLegalHeader ("location=" ++ location ++ "&frontend=data") = isLegalHeader location := by
  have hleft : isLegalHeader "location=" = true := by decide
  have hright : isLegalHeader "&frontend=data" = true := by decide
  rw [isLegalHeader_append, isLegalHeader_append, hleft, hright, Bool.true_and, Bool.and_true]

/-- **The headers are refused,** or they are these. -/
theorem headers_cases (t : RestTransport) :
    (t.Illegal ∧ t.headers = .error .invalidHeader) ∨ (¬ t.Illegal ∧ t.headers = .ok t.fixedHeaders) := by
  have hclient : header "x-goog-api-client" (clientHeader t.generated) =
      .ok [("x-goog-api-client", clientHeader t.generated)] := if_pos (isLegalHeader_client _)
  unfold headers
  rw [hclient]
  cases hlocation : isLegalHeader t.options.connector.location with
  | false =>
    rw [header_eq_error_iff.2 ⟨(isLegalHeader_params _).trans hlocation, rfl⟩]
    exact .inl ⟨.inl hlocation, rfl⟩
  | true =>
    rw [header, if_pos ((isLegalHeader_params _).trans hlocation)]
    cases happ : optionalHeader "x-firebase-gmpid" t.options.appId with
    | error e =>
      obtain ⟨hrefuses, rfl⟩ := optionalHeader_eq_error_iff.1 happ
      exact .inl ⟨.inr hrefuses, rfl⟩
    | ok app =>
      obtain ⟨hrefuses, rfl⟩ := optionalHeader_eq_ok happ
      refine .inr ⟨?_, rfl⟩
      rintro (h | h)
      · rw [hlocation] at h
        cases h
      · exact hrefuses h

theorem headers_eq_error_iff : t.headers = .error e ↔ t.Illegal ∧ e = .invalidHeader := by
  rcases t.headers_cases with ⟨hillegal, hheaders⟩ | ⟨hlegal, hheaders⟩
  · simp [hheaders, hillegal, eq_comm]
  · simp [hheaders, hlegal]

/-! ## Why nothing is sent -/

/-- **Why nothing is sent** with what the fetch of a token has brought. -/
inductive Unsent (t : RestTransport) (action : Action) : TokenOutcome → Error → Prop
  /-- There is no token, -/
  | fetch {e : Error} : Unsent t action (.error e) e
  /-- or it is refused as a header, -/
  | token {token : Option String} (h : Refuses token) : Unsent t action (.ok token) .invalidHeader
  /-- or the address cannot be read, -/
  | address {token : Option String} {e : Web.UrlError} (h : ¬ Refuses token)
      (hurl : Web.Url.parse t.settings.sslEnabled (t.addressText action).toList = .error e) :
      Unsent t action (.ok token) (.invalidUrl e.message)
  /-- or nothing can be sent to it. -/
  | send {token : Option String} {u : Web.Url} (h : ¬ Refuses token) (hurl : t.url action = .ok u)
      (hsend : u.anonymous.isSendable = false) :
      Unsent t action (.ok token) (.sendFailed action
        ("builder error for url (" ++ u.anonymous.text ++ "): Parsed Url is not a valid Uri"))

/-- **What a request carries.** -/
structure Carries (t : RestTransport) (action : Action) (operation : String) (vars : Struct)
    (token : Option String) (request : HttpRequest) : Prop where
  address : ∃ u, t.url action = .ok u ∧ request.url = u.anonymous
  /-- The token is carried exactly if it is there and not empty, -/
  tokenHeader : ∀ v, request.header? "x-firebase-auth-token" = some v ↔ token = some v ∧ v ≠ ""
  /-- and the app id is, -/
  appHeader : ∀ v, request.header? "x-firebase-gmpid" = some v ↔ t.options.appId = some v ∧ v ≠ ""
  /-- and nothing else that is not fixed. -/
  headers : request.headers =
    t.fixedHeaders ++ (sentValue? token).toList.map fun v => ("x-firebase-auth-token", v)
  /-- What is asked for is the same for both actions. -/
  body : request.body = .obj [("name", .str t.options.resourcePath), ("operationName", .str operation),
    ("variables", .obj vars)]

/-- The value of a header that is sent if it is there and not empty. -/
theorem sentValue?_eq_some_iff {value : Option String} {v : String} :
    sentValue? value = some v ↔ value = some v ∧ v ≠ "" := by
  simp [sentValue?]

theorem url_eq_error_iff : t.url action = .error e ↔ ∃ reason,
    Web.Url.parse t.settings.sslEnabled (t.addressText action).toList = .error reason ∧
      e = .invalidUrl reason.message := by
  unfold url
  cases Web.Url.parse t.settings.sslEnabled (t.addressText action).toList <;> simp [eq_comm]

/-- The headers say what they should. -/
theorem carries {u : Web.Url} (hurl : t.url action = .ok u) (operation : String) (vars : Struct)
    (token : Option String) : t.Carries action operation vars token
      { url := u.anonymous
        headers := t.fixedHeaders ++ (sentValue? token).toList.map fun v => ("x-firebase-auth-token", v)
        body := t.body operation vars } := by
  refine ⟨⟨u, hurl, rfl⟩, fun v => ?_, fun v => ?_, rfl, rfl⟩
  · rw [← sentValue?_eq_some_iff]
    simp only [HttpRequest.header?, fixedHeaders]
    cases sentValue? t.options.appId <;> cases sentValue? token <;> simp
  · rw [← sentValue?_eq_some_iff]
    simp only [HttpRequest.header?, fixedHeaders]
    cases sentValue? t.options.appId <;> cases sentValue? token <;> simp

/-- **Nothing is sent for a reason, or a request is sent that carries what it should.** -/
theorem request_cases (hlegal : ¬ t.Illegal) (operation : String) (vars : Struct)
    (token : Option String) :
    (∃ e, t.request action operation vars token = .error e ∧ t.Unsent action (.ok token) e) ∨
      ∃ request, t.request action operation vars token = .ok request ∧
        (∀ e, ¬ t.Unsent action (.ok token) e) ∧ t.Carries action operation vars token request := by
  obtain ⟨hillegal, -⟩ | ⟨-, hheaders⟩ := t.headers_cases
  · exact absurd hillegal hlegal
  unfold RestTransport.request
  rw [hheaders]
  cases hauth : optionalHeader "x-firebase-auth-token" token with
  | error e =>
    obtain ⟨hrefuses, rfl⟩ := optionalHeader_eq_error_iff.1 hauth
    exact .inl ⟨_, rfl, .token hrefuses⟩
  | ok auth =>
    obtain ⟨hrefuses, rfl⟩ := optionalHeader_eq_ok hauth
    cases hurl : t.url action with
    | error e =>
      obtain ⟨reason, hparse, rfl⟩ := url_eq_error_iff.1 hurl
      exact .inl ⟨_, rfl, .address hrefuses hparse⟩
    | ok u =>
      cases hsend : u.anonymous.isSendable with
      | false =>
        refine .inl ⟨_, ?_, .send hrefuses hurl hsend⟩
        simp [bind, Except.bind, hsend, throw, throwThe, MonadExceptOf.throw]
      | true =>
        refine .inr ⟨_, if_pos hsend, ?_, carries hurl operation vars token⟩
        -- each reason contradicts what was found
        rintro e (_ | hrefuses' | ⟨-, hparse⟩ | ⟨-, hurl', hsend'⟩)
        · exact hrefuses hrefuses'
        · rw [url_eq_error_iff.2 ⟨_, hparse, rfl⟩] at hurl
          cases hurl
        · obtain rfl := Except.ok.inj (hurl.symm.trans hurl')
          rw [hsend] at hsend'
          cases hsend'

/-- There is one reason at most. -/
theorem Unsent.unique {d : Error} (h : t.Unsent action outcome d) (h' : t.Unsent action outcome e) :
    d = e := by
  cases h with
  | fetch =>
    cases h'
    rfl
  | token hrefuses =>
    cases h' with
    | token => rfl
    | address hnot => exact absurd hrefuses hnot
    | send hnot => exact absurd hrefuses hnot
  | address hnot hparse =>
    cases h' with
    | token hrefuses => exact absurd hrefuses hnot
    | address _ hparse' => rw [Except.error.inj (hparse.symm.trans hparse')]
    | send _ hurl =>
      rw [url_eq_error_iff.2 ⟨_, hparse, rfl⟩] at hurl
      cases hurl
  | send hnot hurl _ =>
    cases h' with
    | token hrefuses => exact absurd hrefuses hnot
    | address _ hparse =>
      rw [url_eq_error_iff.2 ⟨_, hparse, rfl⟩] at hurl
      cases hurl
    | send _ hurl' _ => rw [Except.ok.inj (hurl.symm.trans hurl')]

end RestTransport

end QueryClient
