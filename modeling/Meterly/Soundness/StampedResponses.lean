import Meterly.Model.MiddlewareStack

/-! # Which responses carry their stamps

Whatever is answered inside of `SecurityHeadersMiddleware` passes it and `RequestContextMiddleware` on its
way out. An exception that no handler answers passes neither: its response is made in the layer outside of
both. So the layers inside are followed from the routes outwards by what they raise.
-/

namespace Meterly

variable {Unexpected : Type}

/-- The error envelope of a response, if it has one, has the id of the request. -/
def HttpResponse.HasRequestId (response : HttpResponse) (requestId : String) : Prop :=
  ∀ code message id, response.body = .envelope code message id → id = requestId

/-- All security headers, the id of the request, which is also that of the error envelope, and no caching of usage. -/
structure Stamped (request : HttpRequest) (response : HttpResponse) : Prop where
  security : ∀ header ∈ securityHeaders, response.headers.get header.1 = some header.2
  requestId : ∃ requestId, response.headers.get "x-request-id" = some requestId ∧ response.HasRequestId requestId
  cacheControl : request.readsUsage → response.headers.get "cache-control" = some "no-store"

/-- The Tier-1 throttle refuses a request. -/
def HttpRequest.throttled (limiter : HttpRequest → Option RateLimitDecision) (request : HttpRequest) : Prop :=
  request.path ∉ tier1ExemptPaths ∧ ∃ decision ∈ limiter request, decision.allowed = false

/-- No layer answers a request before its endpoint does. -/
def AppConfig.Admits (config : AppConfig) (request : HttpRequest) : Prop :=
  config.cors.preflight request = none ∧ ¬ request.tooLarge config.maxBodySizeBytes ∧ ¬ request.throttled config.limiter

/-- What an application comes to in a scope, and the scope that it leaves. -/
def Handling.run (app : Handling Unexpected HttpResponse) (scope : RequestScope) :
    Except Unexpected HttpResponse × RequestScope :=
  (ExceptT.run app).run scope

/-! ## The layers inside -/

/-- In the scope of a request an application leaves the state alone, writes the id of the request into its error
envelopes, and raises in just one case. -/
structure Answers (scope : RequestScope) (raises : Prop) (outcome : Except Unexpected HttpResponse × RequestScope) :
    Prop where
  keeps : outcome.2 = scope
  raises_iff : (∃ error, outcome.1 = .error error) ↔ raises
  envelope : ∀ response, outcome.1 = .ok response → response.HasRequestId scope.requestIdOrUnknown

section Layers

variable {callNext : Handling Unexpected HttpResponse} {scope : RequestScope} {raises : Prop}

theorem hasRequestId_envelopeResponse (statusCode : ℕ) (code message : String) (headers : Headers String String) :
    (envelopeResponse scope statusCode code message headers).HasRequestId scope.requestIdOrUnknown := by
  intro _ _ id same
  exact (ResponseBody.envelope.inj same).2.2.symm

theorem hasRequestId_content (statusCode : ℕ) (headers : Headers String String) (text id : String) :
    (HttpResponse.mk statusCode headers (.content text)).HasRequestId id := nofun

/-- A layer that answers by itself raises nothing. -/
theorem answers_ok {response : HttpResponse} (envelope : response.HasRequestId scope.requestIdOrUnknown)
    (never : ¬ raises) : Answers scope raises ((.ok response : Except Unexpected HttpResponse), scope) where
  keeps := rfl
  raises_iff := iff_of_false nofun never
  envelope _ same := Except.ok.inj same ▸ envelope

/-- A layer that hands the request on raises what the application inside of it raises. -/
theorem Answers.congr {outcome : Except Unexpected HttpResponse × RequestScope} {raises' : Prop}
    (answers : Answers scope raises outcome) (same : raises ↔ raises') : Answers scope raises' outcome :=
  ⟨answers.keeps, answers.raises_iff.trans same, answers.envelope⟩

/-- A layer that works on the headers of what comes out. -/
theorem Answers.map {outcome : Except Unexpected HttpResponse × RequestScope} (answers : Answers scope raises outcome)
    (change : HttpResponse → HttpResponse) (body : ∀ response, (change response).body = response.body) :
    Answers scope raises (outcome.1.map change, outcome.2) := by
  obtain ⟨result, after⟩ := outcome
  obtain ⟨keeps, raises_iff, envelope⟩ := answers
  cases result with
  | error error => exact ⟨keeps, raises_iff, nofun⟩
  | ok response =>
    refine ⟨keeps, iff_of_false nofun fun raised => (nomatch raises_iff.mpr raised), fun _ same => ?_⟩
    obtain rfl := Except.ok.inj same
    intro code message id written
    exact envelope response rfl code message id ((body response).symm.trans written)

/-- A layer reads the scope first. -/
theorem run_get (layer : RequestScope → Handling Unexpected HttpResponse) :
    Handling.run ((get : Handling Unexpected RequestScope) >>= layer) scope = Handling.run (layer scope) scope := rfl

/-- A layer changes the scope first. -/
theorem run_modify (change : RequestScope → RequestScope) (layer : Unit → Handling Unexpected HttpResponse) :
    Handling.run ((modify change : Handling Unexpected Unit) >>= layer) scope =
      Handling.run (layer ()) (change scope) := rfl

/-- A layer that works on what comes out. -/
theorem run_map (change : HttpResponse → HttpResponse) :
    Handling.run ((callNext : Handling Unexpected HttpResponse) >>= fun response => pure (change response)) scope =
      ((Handling.run callNext scope).1.map change, (Handling.run callNext scope).2) := by
  unfold Handling.run
  rw [ExceptT.run_bind, StateT.run_bind]
  generalize (ExceptT.run callNext).run scope = outcome
  obtain ⟨result, after⟩ := outcome
  cases result <;> rfl

theorem answers_exceptionMiddleware (endpoint : HttpRequest → EndpointOutcome Unexpected) :
    Answers scope (∃ error, endpoint scope.request = .unexpected error)
      (Handling.run (exceptionMiddleware endpoint) scope) := by
  rw [exceptionMiddleware, run_get]
  cases endpoint scope.request with
  | response statusCode headers content => exact answers_ok (hasRequestId_content _ _ _ _) nofun
  | http exception => exact answers_ok (hasRequestId_envelopeResponse _ _ _ _) nofun
  | requestValidation errorCount => exact answers_ok (hasRequestId_envelopeResponse _ _ _ _) nofun
  | unexpected error => exact ⟨rfl, iff_of_true ⟨error, rfl⟩ ⟨error, rfl⟩, nofun⟩

theorem answers_tier1EdgeThrottleMiddleware (limiter : HttpRequest → Option RateLimitDecision)
    (inside : Answers scope raises (Handling.run callNext scope)) :
    Answers scope (¬ scope.request.throttled limiter ∧ raises)
      (Handling.run (tier1EdgeThrottleMiddleware limiter callNext) scope) := by
  rw [tier1EdgeThrottleMiddleware, run_get]
  by_cases exempt : scope.request.path ∈ tier1ExemptPaths
  · rw [if_pos exempt]
    exact inside.congr (and_iff_right fun throttled => throttled.1 exempt).symm
  · rw [if_neg exempt]
    cases decided : limiter scope.request with
    | none => exact inside.congr (and_iff_right fun ⟨_, decision, member, _⟩ => by simp [decided] at member).symm
    | some decision =>
      by_cases allowed : decision.allowed
      · simp only [if_pos allowed]
        refine inside.congr (and_iff_right fun ⟨_, other, member, refused⟩ => ?_).symm
        obtain rfl := Option.some.inj (decided.symm.trans member)
        exact absurd allowed (by simp [refused])
      · simp only [if_neg allowed]
        refine answers_ok (hasRequestId_envelopeResponse _ _ _ _) fun admitted => admitted.1 ?_
        exact ⟨exempt, decision, decided, Bool.eq_false_iff.mpr allowed⟩

theorem answers_bodySizeLimitMiddleware (maxBodySizeBytes : ℤ)
    (inside : Answers scope raises (Handling.run callNext scope)) :
    Answers scope (¬ scope.request.tooLarge maxBodySizeBytes ∧ raises)
      (Handling.run (bodySizeLimitMiddleware maxBodySizeBytes callNext) scope) := by
  rw [bodySizeLimitMiddleware, run_get]
  by_cases tooLarge : scope.request.tooLarge maxBodySizeBytes
  · rw [if_pos tooLarge]
    exact answers_ok (hasRequestId_envelopeResponse _ _ _ _) fun admitted => admitted.1 tooLarge
  · rw [if_neg tooLarge]
    exact inside.congr (and_iff_right tooLarge).symm

theorem answers_corsMiddleware (cors : CorsMiddleware) (inside : Answers scope raises (Handling.run callNext scope)) :
    Answers scope (cors.preflight scope.request = none ∧ raises)
      (Handling.run (corsMiddleware cors callNext) scope) := by
  rw [corsMiddleware, run_get]
  cases answered : cors.preflight scope.request with
  | some answer => exact answers_ok (hasRequestId_content _ _ _ _) fun admitted => nomatch admitted.1
  | none =>
    rw [run_map]
    exact (inside.map _ fun _ => by rfl).congr (and_iff_right rfl).symm

end Layers

/-! ## The layers outside -/

/-- The application that the two outer layers go around. -/
def innerApp (config : AppConfig) (endpoint : HttpRequest → EndpointOutcome Unexpected) : App Unexpected :=
  corsMiddleware config.cors (bodySizeLimitMiddleware config.maxBodySizeBytes
    (tier1EdgeThrottleMiddleware config.limiter (exceptionMiddleware endpoint)))

theorem answers_innerApp (config : AppConfig) (endpoint : HttpRequest → EndpointOutcome Unexpected)
    (scope : RequestScope) :
    Answers scope (config.Admits scope.request ∧ ∃ error, endpoint scope.request = .unexpected error)
      (Handling.run (innerApp config endpoint) scope) := by
  refine (answers_corsMiddleware config.cors (answers_bodySizeLimitMiddleware config.maxBodySizeBytes
    (answers_tier1EdgeThrottleMiddleware config.limiter (answers_exceptionMiddleware endpoint)))).congr ?_
  rw [AppConfig.Admits, and_assoc, and_assoc]

/-- What the two outer layers do to a response. -/
def stamp (request : HttpRequest) (requestId : String) (response : HttpResponse) : HttpResponse :=
  let headers := response.headers.setAll securityHeaders
  let headers := if request.readsUsage then headers.set "cache-control" "no-store" else headers
  { response with headers := headers.set "x-request-id" requestId }

/-- A response is stamped on its way out; in place of what is raised, the outermost layer makes one of its own. -/
theorem createApp_eq (config : AppConfig) (endpoint : HttpRequest → EndpointOutcome Unexpected)
    (request : HttpRequest) :
    createApp config endpoint request =
      match Handling.run (innerApp config endpoint) ⟨request, some config.requestId⟩ with
      | (.ok response, _) => stamp request config.requestId response
      | (.error _, scope) => unexpectedErrorResponse scope := by
  have layers : createApp config endpoint request = serverErrorMiddleware
      (requestContextMiddleware config.requestId (securityHeadersMiddleware (innerApp config endpoint)))
      ⟨request, none⟩ := rfl
  have around : Handling.run (requestContextMiddleware config.requestId
        (securityHeadersMiddleware (innerApp config endpoint))) ⟨request, none⟩ =
      ((Handling.run (innerApp config endpoint) ⟨request, some config.requestId⟩).1.map
          (stamp request config.requestId),
        (Handling.run (innerApp config endpoint) ⟨request, some config.requestId⟩).2) := by
    rw [requestContextMiddleware, run_modify, run_map, securityHeadersMiddleware, run_get, run_map]
    cases (Handling.run (innerApp config endpoint) ⟨request, some config.requestId⟩).1 <;> rfl
  rw [layers, serverErrorMiddleware, ← Handling.run, around]
  obtain ⟨result, after⟩ := Handling.run (innerApp config endpoint) ⟨request, some config.requestId⟩
  cases result <;> rfl

/-- No name is assigned twice. -/
theorem securityHeaders_distinct : (securityHeaders.map Prod.fst).Nodup := by decide +kernel

/-- What is assigned last does not touch the security headers. -/
theorem securityHeaders_apart {header : String × String} (member : header ∈ securityHeaders) :
    header.1 ≠ "cache-control" ∧ header.1 ≠ "x-request-id" := by
  have apart : ∀ header ∈ securityHeaders, header.1 ≠ "cache-control" ∧ header.1 ≠ "x-request-id" := by decide +kernel
  exact apart header member

theorem stamped_stamp {request : HttpRequest} {requestId : String} {response : HttpResponse}
    (envelope : response.HasRequestId requestId) : Stamped request (stamp request requestId response) where
  security header member := by
    obtain ⟨notCache, notId⟩ := securityHeaders_apart member
    apply (Headers.get_set_of_ne notId).trans
    have assigned : (response.headers.setAll securityHeaders).get header.1 = some header.2 :=
      Headers.get_setAll_of_mem securityHeaders_distinct member
    split
    · exact (Headers.get_set_of_ne notCache).trans assigned
    · exact assigned
  requestId := ⟨requestId, Headers.get_set_self .., envelope⟩
  cacheControl readsUsage := by
    apply (Headers.get_set_of_ne (by decide +kernel)).trans
    rw [if_pos readsUsage]
    exact Headers.get_set_self ..

/-- The response to an exception that no handler answers has no header but its content type. -/
theorem not_stamped_unexpectedErrorResponse (request : HttpRequest) (scope : RequestScope) :
    ¬ Stamped request (unexpectedErrorResponse scope) := by
  intro stamped
  obtain ⟨requestId, held, _⟩ := stamped.requestId
  have absent : Headers.get [("content-type", "application/json")] "x-request-id" = none := by decide +kernel
  exact nomatch absent.symm.trans held

/-- A response carries its stamps unless an endpoint that was reached has raised what no handler answers. -/
theorem response_stamped_iff (config : AppConfig) (endpoint : HttpRequest → EndpointOutcome Unexpected)
    (request : HttpRequest) :
    Stamped request (createApp config endpoint request) ↔
      ¬ (config.Admits request ∧ ∃ error, endpoint request = .unexpected error) := by
  have answers := answers_innerApp config endpoint ⟨request, some config.requestId⟩
  rw [createApp_eq]
  generalize Handling.run (innerApp config endpoint) ⟨request, some config.requestId⟩ = outcome at answers ⊢
  obtain ⟨result, after⟩ := outcome
  cases result with
  | error error =>
    have raised := answers.raises_iff.mp ⟨error, rfl⟩
    exact iff_of_false (not_stamped_unexpectedErrorResponse request after) (not_not_intro raised)
  | ok response =>
    have notRaised : ¬ ∃ error, (Except.ok response : Except Unexpected HttpResponse) = .error error := nofun
    exact iff_of_true (stamped_stamp (answers.envelope response rfl)) (mt answers.raises_iff.mpr notRaised)

/-- A usage read whose endpoint fails with its database is answered without its request id. -/
theorem failed_usage_response_not_stamped :
    ¬ Stamped ⟨"GET", "/v1/usage", [("authorization", "Bearer mtr_live_a_b")]⟩
      (createApp ⟨65536, ⟨fun _ => none, fun _ headers => headers⟩, fun _ => none, "5f0c"⟩
        (fun _ => .unexpected "OperationalError") ⟨"GET", "/v1/usage", [("authorization", "Bearer mtr_live_a_b")]⟩) :=
  not_stamped_unexpectedErrorResponse _ ⟨_, some "5f0c"⟩

end Meterly
