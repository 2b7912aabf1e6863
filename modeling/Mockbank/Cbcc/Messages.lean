import Mockbank.Jvm.Clock
import Mockbank.Schema.Facets

/-!
# Messages of the UK cobrand credit card protocol

The messages of `UK-CBCC-online.xsd` as beans, where every field may be `null`, and which of
them are valid.

Main results:

- Theorem `xmlString_lit`: which text literals are values of `xs:string`.
-/

namespace Mockbank

open Jvm Schema

namespace Cbcc

/-! ## Simple types -/

/-- A character that an XML document may contain. -/
def isXmlChar : CodePoint → Bool
  | .scalar c => c.toNat = 0x9 || c.toNat = 0xA || c.toNat = 0xD ||
      (0x20 ≤ c.toNat && c.toNat ≠ 0xFFFE && c.toNat ≠ 0xFFFF)
  | .lone _ => false

/-- A value of `xs:string`. -/
def XmlString (s : JString) : Prop :=
  (codePoints s).all isXmlChar = true

instance (s : JString) : Decidable (XmlString s) :=
  inferInstanceAs (Decidable (_ = true))

/-- A text literal is a value of `xs:string` when its characters may stand in a document. -/
theorem xmlString_lit {cs : List Char}
    (h : cs.all (fun c => isXmlChar (.scalar c)) = true) : XmlString (lit (String.ofList cs)) := by
  rw [lit_ofList, XmlString, codePoints_ofChars, List.all_map]
  exact h

/-- Whether the customer has the card and may buy with it. -/
inductive ApplicationStatus where
  | APPROVED_BUY
  | APPROVED_NO_BUY
  | ACTIVATED_BUY
  | ACTIVATED_NO_BUY
  | PENDING
  | DECLINED
  | DECLINED_BY_CUSTOMER
deriving DecidableEq

/-- The kinds of cards. -/
inductive CardType where
  | CLASSIC
  | PLATINUM
deriving DecidableEq

/-- Whether a request is accepted. -/
inductive ResponseResult where
  | ACCEPTED
  | PROCESSING_ERROR
deriving DecidableEq

/-! ## Beans -/

/-- The fields of `onlineMessage`. -/
structure OnlineMessage where
  timestamp : Option XMLGregorianCalendar := none
  transactionId : Option JString := none
  requestId : Option JString := none
  sourceId : Option JString := none
  recipientId : Option JString := none
deriving DecidableEq

/-- The address that the card is billed to. -/
structure Address where
  addressLine1 : Option JString := none
  addressLine2 : Option JString := none
  cityOrTown : Option JString := none
  county : Option JString := none
  postcode : Option JString := none
  countryCode : Option JString := none
  phoneNumber : Option JString := none
deriving DecidableEq

/-- The card of a customer; `expirationDate` is written without the time. -/
structure CreditCardDetails where
  encryptedCreditCardNumber : Option JString := none
  creditCardType : Option CardType := none
  expirationDate : Option XMLGregorianCalendar := none
  cardHolderName : Option JString := none
  billingAddress : Option Address := none
  emailAddress : Option JString := none
  partnerReferenceId : Option JString := none
deriving DecidableEq

/-- The bank tells what has become of an application. -/
structure ApplicationStateChangeRequest extends OnlineMessage where
  amazonReferenceId : Option JString := none
  applicationStatus : Option ApplicationStatus := none
  creditCardDetails : Option CreditCardDetails := none
deriving DecidableEq

/-- The answer to what the bank tells. -/
structure ApplicationStateChangeResponse extends OnlineMessage where
  responseResult : Option ResponseResult := none
  responseResultCode : Option Int := none
  responseResultDescription : Option JString := none
deriving DecidableEq

/-! ## Validity -/

/-- The identifiers of a message. -/
structure ValidIds (m : OnlineMessage) : Prop where
  transactionId : Required XmlString m.transactionId
  requestId : Required XmlString m.requestId
  sourceId : Required XmlString m.sourceId
  recipientId : Required XmlString m.recipientId

/-- The elements of every message. -/
structure ValidMessage (m : OnlineMessage) : Prop extends ValidIds m where
  timestamp : Required XMLGregorianCalendar.Valid m.timestamp

/-- An address that the schema accepts. -/
structure Address.Valid (a : Address) : Prop where
  addressLine1 : Required XmlString a.addressLine1
  addressLine2 : OptionalElement XmlString a.addressLine2
  cityOrTown : Required XmlString a.cityOrTown
  county : OptionalElement XmlString a.county
  postcode : Required XmlString a.postcode
  countryCode : OptionalElement XmlString a.countryCode
  phoneNumber : Required XmlString a.phoneNumber

/-- Card details that the schema accepts. -/
structure CreditCardDetails.Valid (d : CreditCardDetails) : Prop where
  encryptedCreditCardNumber : Required XmlString d.encryptedCreditCardNumber
  creditCardType : d.creditCardType ≠ none
  expirationDate : Required XMLGregorianCalendar.Valid d.expirationDate
  cardHolderName : Required XmlString d.cardHolderName
  billingAddress : Required Address.Valid d.billingAddress
  emailAddress : OptionalElement XmlString d.emailAddress
  partnerReferenceId : OptionalElement XmlString d.partnerReferenceId

/-- A request that the schema accepts. -/
structure ApplicationStateChangeRequest.Valid (r : ApplicationStateChangeRequest) : Prop where
  message : ValidMessage r.toOnlineMessage
  amazonReferenceId : Required XmlString r.amazonReferenceId
  applicationStatus : r.applicationStatus ≠ none
  creditCardDetails : OptionalElement CreditCardDetails.Valid r.creditCardDetails

/-- A response that the schema accepts. -/
structure ApplicationStateChangeResponse.Valid (r : ApplicationStateChangeResponse) : Prop where
  message : ValidMessage r.toOnlineMessage
  responseResult : r.responseResult ≠ none
  responseResultDescription : OptionalElement XmlString r.responseResultDescription

end Cbcc

end Mockbank
