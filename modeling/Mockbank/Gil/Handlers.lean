import Mockbank.Gil.Messages

/-!
# Handlers of the French installment lending mock

`GILFranceResource.handle` and `ClientResource.handle` answer a request with a response
of the matching class, filled by `GILFranceUtil.fillCommonResponse` and a result of
their own.  The clock is a parameter.

Main results:

- Theorem `echoes_fillCommonResponse`: the response carries the identifiers of its
  request.
- Theorem `documented_determineApplicationResult`: the result on every branch comes with
  a code of its documented range.
- Theorem `answer_valid`: the answer to a valid request is valid.
- Theorem `answer_conforms_iff`: which calls are answered as the protocol asks.
-/

namespace Mockbank

open Jvm Schema

namespace Gil

/-! ## The code -/

/-- The three setter calls for a result. -/
def ResponseFields.setResult (response : ResponseFields) (result : ResponseResultType)
    (code : Int) (description : JString) : ResponseFields :=
  { response with
    responseResult := some result
    responseResultCode := some code
    responseResultDescription := some description }

/-- `GILFranceUtil.fillCommonResponse`. -/
def fillCommonResponse (utc : ZonedDateTime) (request response : Message) : Message :=
  { response with
    timestamp := some (newXMLGregorianCalendar utc)
    systemId := request.systemId
    transactionId := request.transactionId
    requestId := request.requestId
    merchantId := request.merchantId
    marketplaceId := request.marketplaceId
    version := some (lit "1") }

namespace GILFranceResource

/-- The result of an application, by the end of the family name. -/
def determineApplicationResult (request : LoanApplicationCreationRequest)
    (response : ResponseFields) : ResponseFields :=
  match request.customer.bind Customer.familyName with
  | none =>
      response.setResult .PROCESSING_ERROR 300
        (lit "Missing customer info or customer's family name")
  | some familyName =>
      if (lit "AA").isSuffixOf familyName then
        response.setResult .ACCEPTED 0 (lit "All OK!")
      else if (lit "DD").isSuffixOf familyName then
        response.setResult .REJECTED 100 (lit "Rejected")
      else
        response.setResult .PENDING 200 (lit "Pending")

/-- The result of a confirmation, with the external loan id of the request. -/
def determineConfirmationResult (request : LoanConfirmationRequest)
    (response : LoanConfirmationResponse) : LoanConfirmationResponse :=
  { response with
    externalLoanId := request.externalLoanId
    toResponseFields := response.setResult .ACCEPTED 0 (lit "All OK!") }

/-- The result of an adjustment, whatever is asked. -/
def determineAdjustmentResult (_request : LoanAdjustmentRequest) (response : ResponseFields) :
    ResponseFields :=
  response.setResult .ACCEPTED 0 (lit "All OK!")

/-- The result of a charge, whatever is asked. -/
def determineChargeResult (_request : LoanChargeRequest) (response : ResponseFields) :
    ResponseFields :=
  response.setResult .ACCEPTED 0 (lit "All OK!")

/-- `GILFranceResource.handle(LoanApplicationCreationRequest)`. -/
def handleApplicationCreation (utc : ZonedDateTime) (request : LoanApplicationCreationRequest) :
    LoanApplicationCreationResponse :=
  let response : LoanApplicationCreationResponse := {}
  { toMessage := fillCommonResponse utc request.toMessage response.toMessage
    toResponseFields := determineApplicationResult request response.toResponseFields }

/-- `GILFranceResource.handle(LoanConfirmationRequest)`. -/
def handleConfirmation (utc : ZonedDateTime) (request : LoanConfirmationRequest) :
    LoanConfirmationResponse :=
  let response : LoanConfirmationResponse := {}
  determineConfirmationResult request
    { response with toMessage := fillCommonResponse utc request.toMessage response.toMessage }

/-- `GILFranceResource.handle(LoanAdjustmentRequest)`. -/
def handleAdjustment (utc : ZonedDateTime) (request : LoanAdjustmentRequest) :
    LoanAdjustmentResponse :=
  let response : LoanAdjustmentResponse := {}
  { toMessage := fillCommonResponse utc request.toMessage response.toMessage
    toResponseFields := determineAdjustmentResult request response.toResponseFields }

/-- `GILFranceResource.handle(LoanChargeRequest)`. -/
def handleCharge (utc : ZonedDateTime) (request : LoanChargeRequest) : LoanChargeResponse :=
  let response : LoanChargeResponse := {}
  { toMessage := fillCommonResponse utc request.toMessage response.toMessage
    toResponseFields := determineChargeResult request response.toResponseFields }

/-- `GILFranceResource.handle(Request)`; requests of other classes are answered with
`null`. -/
def handle (utc : ZonedDateTime) : Request → Option Response
  | .loanApplicationCreation request =>
      some (.loanApplicationCreation (handleApplicationCreation utc request))
  | .loanConfirmation request => some (.loanConfirmation (handleConfirmation utc request))
  | .loanAdjustment request => some (.loanAdjustment (handleAdjustment utc request))
  | .loanCharge request => some (.loanCharge (handleCharge utc request))
  | _ => none

end GILFranceResource

/-- `ClientResource.handle(LoanStatusNotificationRequest)`. -/
def ClientResource.handle (utc : ZonedDateTime) (request : LoanStatusNotificationRequest) :
    LoanStatusNotificationResponse :=
  let response : LoanStatusNotificationResponse := {}
  { toMessage := fillCommonResponse utc request.toMessage response.toMessage
    toResponseFields := response.setResult .ACCEPTED 0 (lit "All OK!") }

/-! ## What a conforming answer is -/

/-- A request as one of the two resources receives it. -/
inductive Call where
  | gilFrance (request : Request)
  | client (request : LoanStatusNotificationRequest)

/-- The request of a call. -/
def Call.request : Call → Request
  | .gilFrance request => request
  | .client request => .loanStatusNotification request

/-- What the resource answers; `none` is `null`. -/
def Call.answer (utc : ZonedDateTime) : Call → Option Response
  | .gilFrance request => GILFranceResource.handle utc request
  | .client request => some (.loanStatusNotification (ClientResource.handle utc request))

/-- The requests that `GILFranceResource.handle` dispatches on, and every notification
at the client. -/
def Call.Dispatched : Call → Prop
  | .gilFrance (.loanApplicationCreation _) => True
  | .gilFrance (.loanConfirmation _) => True
  | .gilFrance (.loanAdjustment _) => True
  | .gilFrance (.loanCharge _) => True
  | .gilFrance _ => False
  | .client _ => True

/-- The response class that matches a request. -/
def MatchingClass : Request → Response → Prop
  | .loanApplicationCreation _, .loanApplicationCreation _ => True
  | .loanConfirmation _, .loanConfirmation _ => True
  | .loanAdjustment _, .loanAdjustment _ => True
  | .loanCharge _, .loanCharge _ => True
  | .loanStatusNotification _, .loanStatusNotification _ => True
  | _, _ => False

/-- A result and a code of the range that the schema documents for it. -/
def DocumentedCode (fields : ResponseFields) : Prop :=
  ∃ result code, fields.responseResult = some result ∧
    fields.responseResultCode = some code ∧ result.Documents code

/-- A confirmation is answered with the loan it names, or with a loan id of the lender
when it reuses a credit line. -/
def LoanIdRule : Request → Response → Prop
  | .loanConfirmation request, .loanConfirmation response =>
      (∀ loanId, request.externalLoanId = some loanId → response.externalLoanId = some loanId) ∧
        (request.externalLoanId = none →
          Required ExternalLoanIdType.Matches response.externalLoanId)
  | _, _ => True

/-- What the protocol asks of the answer to a request. -/
structure Conforms (request : Request) (response : Response) : Prop where
  matchingClass : MatchingClass request response
  echoes : Echoes request.message response.message
  valid : response.Valid
  documentedCode : DocumentedCode response.fields
  loanId : LoanIdRule request response

/-- A confirmation that names no loan, but the credit line that is reused. -/
def ReusesCreditLine : Request → Prop
  | .loanConfirmation request =>
      request.externalLoanId = none ∧ request.externalCreditLineId ≠ none
  | _ => False

/-! ## Identifiers -/

/-- The common part of a response carries the identifiers of the request. -/
theorem echoes_fillCommonResponse (utc : ZonedDateTime) (request response : Message) :
    Echoes request (fillCommonResponse utc request response) where
  systemId := rfl
  transactionId := rfl
  requestId := rfl
  merchantId := rfl
  marketplaceId := rfl

/-- The version that every response carries. -/
theorem versionType_one : VersionType.Matches (lit "1") := by
  rw [lit_ofList]
  decide

/-- The common part of a response to a valid message is valid. -/
theorem valid_fillCommonResponse (utc : ZonedDateTime) {request : Message}
    (h : ValidMessage request) (response : Message) :
    ValidMessage (fillCommonResponse utc request response) := by
  apply (echoes_fillCommonResponse utc request response).valid h
  · exact required_some_iff.mpr (valid_newXMLGregorianCalendar utc)
  · exact required_some_iff.mpr versionType_one

/-! ## Results -/

/-- Fields that hold a result, a documented code and a description of legal length. -/
structure Documented (fields : ResponseFields) : Prop where
  code : DocumentedCode fields
  description :
    OptionalElement ResponseResultDescriptionType fields.responseResultDescription

theorem documented_setResult (response : ResponseFields) {result : ResponseResultType}
    {code : Int} {description : JString} (hcode : result.Documents code)
    (hdescription : ResponseResultDescriptionType description) :
    Documented (response.setResult result code description) where
  code := ⟨result, code, rfl, rfl, hcode⟩
  description := optional_some_iff.mpr hdescription

/-- The result that most handlers set. -/
theorem documented_allOk (response : ResponseFields) :
    Documented (response.setResult .ACCEPTED 0 (lit "All OK!")) :=
  documented_setResult response rfl (maxLength_lit (by decide))

/-- The result on every branch of an application comes with a documented code. -/
theorem documented_determineApplicationResult (request : LoanApplicationCreationRequest)
    (response : ResponseFields) :
    Documented (GILFranceResource.determineApplicationResult request response) := by
  unfold GILFranceResource.determineApplicationResult
  split
  next => exact documented_setResult response (by decide) (maxLength_lit (by decide))
  next familyName _ =>
    by_cases haa : (lit "AA").isSuffixOf familyName
    · rw [if_pos haa]
      exact documented_allOk response
    · rw [if_neg haa]
      by_cases hdd : (lit "DD").isSuffixOf familyName
      · rw [if_pos hdd]
        exact documented_setResult response (by decide) (maxLength_lit (by decide))
      · rw [if_neg hdd]
        exact documented_setResult response (by decide) (maxLength_lit (by decide))

/-- Documented fields satisfy the schema. -/
theorem Documented.valid {fields : ResponseFields} (h : Documented fields) :
    ValidResponseFields fields := by
  rcases h.code with ⟨result, code, hresult, hcode, hdoc⟩
  exact {
    responseResult := by
      rw [hresult]
      exact Option.some_ne_none result
    responseResultCode := by
      rw [hcode]
      exact optional_some_iff.mpr hdoc.valid
    responseResultDescription := h.description }

/-! ## Answers -/

/-- What a call that is dispatched on is answered with. -/
structure Answered (utc : ZonedDateTime) (request : Request) (response : Response) : Prop where
  matchingClass : MatchingClass request response
  message : response.message = fillCommonResponse utc request.message {}
  documented : Documented response.fields

/-- Every call that is dispatched on is answered. -/
theorem answered (utc : ZonedDateTime) {call : Call} (h : call.Dispatched) :
    ∃ response, call.answer utc = some response ∧ Answered utc call.request response := by
  cases call with
  | client request => exact ⟨_, rfl, trivial, rfl, documented_allOk {}⟩
  | gilFrance request =>
      cases request with
      | loanApplicationCreation request =>
          exact ⟨_, rfl, trivial, rfl, documented_determineApplicationResult request {}⟩
      | loanConfirmation request => exact ⟨_, rfl, trivial, rfl, documented_allOk {}⟩
      | loanAdjustment request => exact ⟨_, rfl, trivial, rfl, documented_allOk {}⟩
      | loanCharge request => exact ⟨_, rfl, trivial, rfl, documented_allOk {}⟩
      | loanStatusNotification request => exact h.elim
      | healthCheck request => exact h.elim
      | creditLineNotification request => exact h.elim

/-- Only a confirmation is answered with a confirmation response, which carries the loan
id of the request. -/
theorem confirmation_of_answer {utc : ZonedDateTime} {call : Call}
    {response : LoanConfirmationResponse}
    (h : call.answer utc = some (.loanConfirmation response)) :
    ∃ request, call = .gilFrance (.loanConfirmation request) ∧
      response.externalLoanId = request.externalLoanId := by
  cases call with
  | client request => simp [Call.answer] at h
  | gilFrance request =>
      cases request with
      | loanConfirmation request =>
          refine ⟨request, rfl, ?_⟩
          rw [← Response.loanConfirmation.inj (Option.some.inj h)]
          rfl
      | _ => simp [Call.answer, GILFranceResource.handle] at h

/-- The loan id of an answer is that of a valid request, or not there. -/
theorem validExtension_answer {utc : ZonedDateTime} {call : Call} {response : Response}
    (hvalid : call.request.Valid) (h : call.answer utc = some response) :
    response.ValidExtension := by
  cases response with
  | loanConfirmation response =>
      rcases confirmation_of_answer h with ⟨request, rfl, hloanId⟩
      simp only [Response.ValidExtension, hloanId]
      rcases hvalid.2 with hloan | hline
      · exact hloan.1.optional
      · rw [hline.1]
        exact optional_none
  | _ => trivial

/-- The answer to a valid request is valid. -/
theorem answer_valid {utc : ZonedDateTime} {call : Call} {response : Response}
    (hvalid : call.request.Valid) (h : call.answer utc = some response)
    (hanswered : Answered utc call.request response) : response.Valid where
  message := by
    rw [hanswered.message]
    exact valid_fillCommonResponse utc hvalid.1 {}
  fields := hanswered.documented.valid
  extension := validExtension_answer hvalid h

/-- The loan id is as the protocol asks unless a credit line is reused. -/
theorem loanIdRule_iff {utc : ZonedDateTime} {call : Call} {response : Response}
    (hvalid : call.request.Valid) (h : call.answer utc = some response) :
    LoanIdRule call.request response ↔ ¬ ReusesCreditLine call.request := by
  cases response with
  | loanConfirmation response =>
      rcases confirmation_of_answer h with ⟨request, rfl, hloanId⟩
      simp only [Call.request, LoanIdRule, ReusesCreditLine, hloanId]
      rcases hvalid.2 with hloan | hline
      · rcases hloan.1 with ⟨loanId, hsome, _⟩
        simp [hsome]
      · simp [hline.1, hline.2]
  | _ =>
      have hother : ¬ ReusesCreditLine call.request := by
        intro hreuse
        cases call with
        | client request => exact hreuse
        | gilFrance request =>
            cases request with
            | loanConfirmation request => simp [Call.answer, GILFranceResource.handle] at h
            | _ => exact hreuse
      simp only [hother, not_false_eq_true, iff_true]
      cases call with
      | client request => trivial
      | gilFrance request => cases request <;> trivial

/-- A valid request that is dispatched on is answered as the protocol asks exactly when
it does not confirm the reuse of a credit line. -/
theorem answer_conforms_iff (utc : ZonedDateTime) (call : Call) (hvalid : call.request.Valid)
    (hdispatched : call.Dispatched) :
    (∃ response, call.answer utc = some response ∧ Conforms call.request response) ↔
      ¬ ReusesCreditLine call.request := by
  constructor
  · rintro ⟨response, h, hconforms⟩
    exact (loanIdRule_iff hvalid h).mp hconforms.loanId
  · intro hreuse
    rcases answered utc hdispatched with ⟨response, h, hanswered⟩
    refine ⟨response, h, ?_⟩
    exact {
      matchingClass := hanswered.matchingClass
      echoes := by
        rw [hanswered.message]
        exact echoes_fillCommonResponse utc call.request.message {}
      valid := answer_valid hvalid h hanswered
      documentedCode := hanswered.documented.code
      loanId := (loanIdRule_iff hvalid h).mpr hreuse }

/-- The time of the sample requests. -/
def sampleTime : XMLGregorianCalendar where
  year := 2015
  month := 7
  day := 3
  hour := 0
  minute := 30
  second := 22
  fraction := [3, 4, 5]
  timezone := none

theorem valid_sampleTime : sampleTime.Valid where
  year := by decide
  month := by decide
  day := by decide
  time := by decide
  timezone := by simp [sampleTime]

/-- A clock a day later. -/
def sampleClock : ZonedDateTime where
  year := 2015
  month := 7
  day := 4
  hour := 12
  minute := 5
  second := 9
  nano := 460000000
  year_pos := by decide
  month_range := by decide
  day_range := by decide
  time_range := by decide

/-- The common part of the sample requests. -/
def sampleMessage : Message where
  timestamp := some sampleTime
  systemId := some (lit "85.183.32.68")
  transactionId := some (lit "Base64UUID1")
  requestId := some (lit "1")
  merchantId := some (lit "Amazon")
  marketplaceId := some (lit "FR")
  version := some (lit "1")

theorem valid_sampleMessage : ValidMessage sampleMessage where
  timestamp := required_some_iff.mpr valid_sampleTime
  systemId := optional_some_iff.mpr (by rw [lit_ofList]; decide)
  transactionId := required_some_iff.mpr (by rw [lit_ofList]; decide)
  requestId := required_some_iff.mpr (by rw [lit_ofList]; decide)
  merchantId := required_some_iff.mpr (by rw [lit_ofList]; decide)
  marketplaceId := required_some_iff.mpr (by rw [lit_ofList]; decide)
  version := required_some_iff.mpr versionType_one

/-- A confirmation that names its loan. -/
def sampleConfirmation : LoanConfirmationRequest :=
  { sampleMessage with externalLoanId := some (lit "1") }

/-- A confirmation that names its loan is answered as the protocol asks. -/
theorem answer_conforms_iff_loan :
    ∃ response,
      (Call.gilFrance (.loanConfirmation sampleConfirmation)).answer sampleClock = some response ∧
        Conforms (.loanConfirmation sampleConfirmation) response := by
  have hvalid : (Request.loanConfirmation sampleConfirmation).Valid := by
    refine ⟨valid_sampleMessage, Or.inl ⟨required_some_iff.mpr ?_, rfl⟩⟩
    rw [lit_ofList]
    decide
  apply (answer_conforms_iff sampleClock (.gilFrance (.loanConfirmation sampleConfirmation))
    hvalid trivial).mpr
  intro hreuse
  exact Option.some_ne_none _ hreuse.1

/-- The sample confirmation that reuses a credit line. -/
def sampleCreditLineReuse : LoanConfirmationRequest :=
  { sampleMessage with externalCreditLineId := some (lit "Cofidis_Credit_Line_Id") }

/-- The sample confirmation that reuses a credit line is valid, and the answer does not
carry the loan id that the lender has to generate. -/
theorem not_conforms_creditLineReuse :
    (Request.loanConfirmation sampleCreditLineReuse).Valid ∧
      ¬ ∃ response,
        (Call.gilFrance (.loanConfirmation sampleCreditLineReuse)).answer sampleClock =
          some response ∧ Conforms (.loanConfirmation sampleCreditLineReuse) response := by
  constructor
  · exact ⟨valid_sampleMessage, Or.inr ⟨rfl, Option.some_ne_none _⟩⟩
  · rintro ⟨response, h, hconforms⟩
    rw [← Option.some.inj h] at hconforms
    exact not_required_none (hconforms.loanId.2 rfl)

end Gil

end Mockbank
