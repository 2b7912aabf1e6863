import Mockbank.Jvm.Clock
import Mockbank.Schema.Facets

/-!
# Messages of the French installment lending protocol

The messages of `gil_fr.xsd` as the beans that requests are read into and responses are
written from, where every field may be `null`, and which of them are valid.

Main results:

- Theorem `Echoes.valid`: a message that carries the identifiers of a valid one is
  valid, with a timestamp and a version of its own.
- Theorem `ResponseResultType.Documents.valid`: a documented code is one the schema
  accepts.
-/

namespace Mockbank

open Jvm Schema

namespace Gil

/-! ## Simple types -/

/-- A character of `[0-9]`. -/
def isDigit (u : JChar) : Bool :=
  inRange '0' '9' u

/-- A character of `[a-zA-Z]`. -/
def isLetter (u : JChar) : Bool :=
  inRange 'a' 'z' u || inRange 'A' 'Z' u

/-- `[0-9a-zA-Z.:-]{1,128}`. -/
def SystemIdType : Repeated :=
  ⟨1, 128, fun u => isDigit u || isLetter u || u = 0x2E || u = 0x3A || u = 0x2D⟩

/-- `[0-9a-zA-Z_-]{1,22}`. -/
def Base64UUIDType : Repeated :=
  ⟨1, 22, fun u => isDigit u || isLetter u || u = 0x5F || u = 0x2D⟩

/-- `[0-9a-zA-Z.]{1,9}`. -/
def MerchantIdType : Repeated :=
  ⟨1, 9, fun u => isDigit u || isLetter u || u = 0x2E⟩

/-- `[A-Za-z]{1,2}`. -/
def MarketplaceIdType : Repeated :=
  ⟨1, 2, isLetter⟩

/-- `[0-9]{1,5}`. -/
def VersionType : Repeated :=
  ⟨1, 5, isDigit⟩

/-- `[0-9]{1,30}`. -/
def ExternalLoanIdType : Repeated :=
  ⟨1, 30, isDigit⟩

/-- `[A-Za-z0-9._-]{1,64}`. -/
def LoanApplicationIdType : Repeated :=
  ⟨1, 64, fun u => isDigit u || isLetter u || u = 0x2E || u = 0x5F || u = 0x2D⟩

/-- The outcome of a request, as the lender sees it. -/
inductive ResponseResultType where
  | ACCEPTED
  | REJECTED
  | PENDING
  | PROCESSING_ERROR
deriving DecidableEq

/-- What the pattern `\d{1,3}` leaves of an `xs:int`, which is written in decimal. -/
def ResponseResultCodeType (code : Int) : Prop :=
  0 ≤ code ∧ code ≤ 999

/-- A string of at most 255 characters. -/
def ResponseResultDescriptionType (s : JString) : Prop :=
  MaxLength 255 s

/-- The codes that the schema documents for a result. -/
def ResponseResultType.Documents : ResponseResultType → Int → Prop
  | .ACCEPTED, code => code = 0
  | .REJECTED, code => 100 ≤ code ∧ code ≤ 199
  | .PENDING, code => 200 ≤ code ∧ code ≤ 299
  | .PROCESSING_ERROR, code => 300 ≤ code ∧ code ≤ 399

instance : (result : ResponseResultType) → (code : Int) → Decidable (result.Documents code)
  | .ACCEPTED, code => inferInstanceAs (Decidable (code = 0))
  | .REJECTED, code => inferInstanceAs (Decidable (100 ≤ code ∧ code ≤ 199))
  | .PENDING, code => inferInstanceAs (Decidable (200 ≤ code ∧ code ≤ 299))
  | .PROCESSING_ERROR, code => inferInstanceAs (Decidable (300 ≤ code ∧ code ≤ 399))

/-! ## Beans -/

/-- The fields of every message. -/
structure Message where
  timestamp : Option XMLGregorianCalendar := none
  systemId : Option JString := none
  transactionId : Option JString := none
  requestId : Option JString := none
  merchantId : Option JString := none
  marketplaceId : Option JString := none
  version : Option JString := none
deriving DecidableEq

/-- The group `responseFields`. -/
structure ResponseFields where
  responseResult : Option ResponseResultType := none
  responseResultCode : Option Int := none
  responseResultDescription : Option JString := none
deriving DecidableEq

/-- The customer of an application; only the family name is looked at. -/
structure Customer where
  familyName : Option JString := none

/-- The customer applies for a loan. -/
structure LoanApplicationCreationRequest extends Message where
  loanApplicationId : Option JString := none
  customer : Option Customer := none

/-- The customer takes a loan, or reuses a credit line. -/
structure LoanConfirmationRequest extends Message where
  externalLoanId : Option JString := none
  externalCreditLineId : Option JString := none

/-- The amount of a loan changes. -/
structure LoanAdjustmentRequest extends Message where
  externalLoanId : Option JString := none

/-- A loan is charged. -/
structure LoanChargeRequest extends Message where
  externalLoanId : Option JString := none

/-- The lender tells what has become of an application. -/
structure LoanStatusNotificationRequest extends Message, ResponseFields where
  externalLoanId : Option JString := none
  loanApplicationId : Option JString := none
deriving DecidableEq

/-- The requests of the protocol; what the last two add to a message is read nowhere. -/
inductive Request where
  | loanApplicationCreation (request : LoanApplicationCreationRequest)
  | loanConfirmation (request : LoanConfirmationRequest)
  | loanAdjustment (request : LoanAdjustmentRequest)
  | loanCharge (request : LoanChargeRequest)
  | loanStatusNotification (request : LoanStatusNotificationRequest)
  | healthCheck (request : Message)
  | creditLineNotification (request : Message)

/-- The answer to an application. -/
structure LoanApplicationCreationResponse extends Message, ResponseFields

/-- The answer to a confirmation, with the loan. -/
structure LoanConfirmationResponse extends Message, ResponseFields where
  externalLoanId : Option JString := none

/-- The answer to an adjustment. -/
structure LoanAdjustmentResponse extends Message, ResponseFields

/-- The answer to a charge. -/
structure LoanChargeResponse extends Message, ResponseFields

/-- The answer to a notification. -/
structure LoanStatusNotificationResponse extends Message, ResponseFields
deriving DecidableEq

/-- The responses that the mock makes up. -/
inductive Response where
  | loanApplicationCreation (response : LoanApplicationCreationResponse)
  | loanConfirmation (response : LoanConfirmationResponse)
  | loanAdjustment (response : LoanAdjustmentResponse)
  | loanCharge (response : LoanChargeResponse)
  | loanStatusNotification (response : LoanStatusNotificationResponse)

/-- What a request has as a message. -/
def Request.message : Request → Message
  | .loanApplicationCreation request => request.toMessage
  | .loanConfirmation request => request.toMessage
  | .loanAdjustment request => request.toMessage
  | .loanCharge request => request.toMessage
  | .loanStatusNotification request => request.toMessage
  | .healthCheck request => request
  | .creditLineNotification request => request

/-- What a response has as a message. -/
def Response.message : Response → Message
  | .loanApplicationCreation response => response.toMessage
  | .loanConfirmation response => response.toMessage
  | .loanAdjustment response => response.toMessage
  | .loanCharge response => response.toMessage
  | .loanStatusNotification response => response.toMessage

/-- The result in a response. -/
def Response.fields : Response → ResponseFields
  | .loanApplicationCreation response => response.toResponseFields
  | .loanConfirmation response => response.toResponseFields
  | .loanAdjustment response => response.toResponseFields
  | .loanCharge response => response.toResponseFields
  | .loanStatusNotification response => response.toResponseFields

/-! ## Validity -/

/-- The elements of every message. -/
structure ValidMessage (m : Message) : Prop where
  timestamp : Required XMLGregorianCalendar.Valid m.timestamp
  systemId : OptionalElement SystemIdType.Matches m.systemId
  transactionId : Required Base64UUIDType.Matches m.transactionId
  requestId : Required Base64UUIDType.Matches m.requestId
  merchantId : Required MerchantIdType.Matches m.merchantId
  marketplaceId : Required MarketplaceIdType.Matches m.marketplaceId
  version : Required VersionType.Matches m.version

/-- The elements of the group `responseFields`. -/
structure ValidResponseFields (r : ResponseFields) : Prop where
  responseResult : r.responseResult ≠ none
  responseResultCode : OptionalElement ResponseResultCodeType r.responseResultCode
  responseResultDescription :
    OptionalElement ResponseResultDescriptionType r.responseResultDescription

/-- The choice of a confirmation: the loan, or the credit line that is reused. -/
def ConfirmationChoice (request : LoanConfirmationRequest) : Prop :=
  (Required ExternalLoanIdType.Matches request.externalLoanId ∧
      request.externalCreditLineId = none) ∨
    (request.externalLoanId = none ∧ request.externalCreditLineId ≠ none)

/-- A request that the schema accepts. -/
def Request.Valid (request : Request) : Prop :=
  ValidMessage request.message ∧
    match request with
    | .loanApplicationCreation request =>
        Required LoanApplicationIdType.Matches request.loanApplicationId
    | .loanConfirmation request => ConfirmationChoice request
    | .loanAdjustment request => Required ExternalLoanIdType.Matches request.externalLoanId
    | .loanCharge request => Required ExternalLoanIdType.Matches request.externalLoanId
    | .loanStatusNotification request =>
        Required ExternalLoanIdType.Matches request.externalLoanId ∧
          Required LoanApplicationIdType.Matches request.loanApplicationId ∧
          ValidResponseFields request.toResponseFields
    | .healthCheck _ => True
    | .creditLineNotification _ => True

/-- The elements that only a confirmation response has. -/
def Response.ValidExtension : Response → Prop
  | .loanConfirmation response =>
      OptionalElement ExternalLoanIdType.Matches response.externalLoanId
  | _ => True

/-- A response that the schema accepts. -/
structure Response.Valid (response : Response) : Prop where
  message : ValidMessage response.message
  fields : ValidResponseFields response.fields
  extension : response.ValidExtension

/-- A response carries the identifiers of its request. -/
structure Echoes (request response : Message) : Prop where
  systemId : response.systemId = request.systemId
  transactionId : response.transactionId = request.transactionId
  requestId : response.requestId = request.requestId
  merchantId : response.merchantId = request.merchantId
  marketplaceId : response.marketplaceId = request.marketplaceId

/-- A message that carries the identifiers of a valid one is valid. -/
theorem Echoes.valid {request response : Message} (h : Echoes request response)
    (hrequest : ValidMessage request)
    (htimestamp : Required XMLGregorianCalendar.Valid response.timestamp)
    (hversion : Required VersionType.Matches response.version) : ValidMessage response where
  timestamp := htimestamp
  systemId := h.systemId ▸ hrequest.systemId
  transactionId := h.transactionId ▸ hrequest.transactionId
  requestId := h.requestId ▸ hrequest.requestId
  merchantId := h.merchantId ▸ hrequest.merchantId
  marketplaceId := h.marketplaceId ▸ hrequest.marketplaceId
  version := hversion

/-- A documented code is one the schema accepts. -/
theorem ResponseResultType.Documents.valid {result : ResponseResultType} {code : Int}
    (h : result.Documents code) : ResponseResultCodeType code := by
  unfold ResponseResultCodeType
  cases result <;> simp only [Documents] at h <;> omega

end Gil

end Mockbank
