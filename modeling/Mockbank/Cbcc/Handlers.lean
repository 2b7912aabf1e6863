import Mockbank.Cbcc.Messages
import Mockbank.Notify.Wire

/-!
# The UK cobrand credit card mock

`GET cbcc/uk` makes a request up for a reference and notifies a client of it.  An address
that is none leads back to the mock itself, where `POST client/cbcc/uk` answers.  The clock
is a parameter.

Main results:

- Theorem `valid_createRequest_iff`: when the request that is made up is valid.
- Theorem `valid_handle_iff`: when the answer to a request is valid.
- Theorem `get_over_wire`: what `GET cbcc/uk` does without an address.
-/

namespace Mockbank

open Jvm Schema Notify

namespace Cbcc

/-! ## The code -/

/-- `UKCBCCUtil.fillCommonResponse`. -/
def fillCommonResponse (utc : ZonedDateTime) (request response : OnlineMessage) :
    OnlineMessage :=
  { response with
    timestamp := some (newXMLGregorianCalendar utc)
    transactionId := request.transactionId
    requestId := request.requestId
    recipientId := request.sourceId
    sourceId := request.recipientId }

/-- `UKCBCCUtil.createRequest`. -/
def createRequest (utc : ZonedDateTime) (ari : Option JString) : ApplicationStateChangeRequest where
  timestamp := some (newXMLGregorianCalendar utc)
  transactionId := some (lit "Transaction_ABCD")
  requestId := some (lit "ANBKLSDLHKE")
  sourceId := some (lit "credit-mockbank.com")
  recipientId := some (lit "AMAZON")
  amazonReferenceId := ari
  applicationStatus := some .APPROVED_BUY
  creditCardDetails := some
    { encryptedCreditCardNumber := some (lit "IAmTheEncryptedCreditCardNumber")
      creditCardType := some .CLASSIC
      expirationDate := some (newXMLGregorianCalendar (utc.plusYears 5))
      cardHolderName := some (lit "Sherlock Holmes")
      billingAddress := some
        { addressLine1 := some (lit "221B Baker Street")
          cityOrTown := some (lit "London")
          postcode := some (lit "NW1 6XE")
          countryCode := some (lit "UK")
          phoneNumber := some (lit "+44 20 7224 3688") }
      emailAddress := some (lit "Sherlock.Holmes@co.uk")
      partnerReferenceId := some (lit "FDJSLKFJLKDSJFKDSJ") }

/-- `ClientResource.handle(ApplicationStateChangeRequest)`. -/
def ClientResource.handle (utc : ZonedDateTime) (request : ApplicationStateChangeRequest) :
    ApplicationStateChangeResponse :=
  let response : ApplicationStateChangeResponse := {}
  { toOnlineMessage :=
      fillCommonResponse utc request.toOnlineMessage response.toOnlineMessage
    responseResult := some .ACCEPTED
    responseResultCode := some 0
    responseResultDescription := some (lit "All OK!") }

/-- `UKCBCCResource.handle` for `GET cbcc/uk`. -/
def UKCBCCResource.get (J : JaxRs ApplicationStateChangeRequest ApplicationStateChangeResponse)
    (utc : ZonedDateTime) (clientEndpoint : Option JString) (isAsync : Bool)
    (ari : Option JString) :
    EStateM Throwable (Trace J) (Option ApplicationStateChangeResponse) :=
  let request := createRequest utc ari
  Notify.UKCBCCResource.handle J clientEndpoint isAsync request

/-! ## Messages -/

/-- Only the identifiers of a request are looked at. -/
theorem handle_congr (utc : ZonedDateTime) {request request' : ApplicationStateChangeRequest}
    (h : request.toOnlineMessage = request'.toOnlineMessage) :
    ClientResource.handle utc request = ClientResource.handle utc request' := by
  unfold ClientResource.handle
  rw [h]

/-- The answer goes back to where the request came from. -/
structure Answers (request response : OnlineMessage) : Prop where
  transactionId : response.transactionId = request.transactionId
  requestId : response.requestId = request.requestId
  sourceId : response.sourceId = request.recipientId
  recipientId : response.recipientId = request.sourceId

theorem answers_fillCommonResponse (utc : ZonedDateTime) (request response : OnlineMessage) :
    Answers request (fillCommonResponse utc request response) where
  transactionId := rfl
  requestId := rfl
  sourceId := rfl
  recipientId := rfl

/-- Source and recipient can change places. -/
theorem Answers.validIds_iff {request response : OnlineMessage} (h : Answers request response) :
    ValidIds response ↔ ValidIds request := by
  constructor
  · intro hvalid
    exact ⟨h.transactionId ▸ hvalid.transactionId, h.requestId ▸ hvalid.requestId,
      h.recipientId ▸ hvalid.recipientId, h.sourceId ▸ hvalid.sourceId⟩
  · intro hvalid
    exact {
      transactionId := h.transactionId ▸ hvalid.transactionId
      requestId := h.requestId ▸ hvalid.requestId
      sourceId := h.sourceId ▸ hvalid.recipientId
      recipientId := h.recipientId ▸ hvalid.sourceId }

/-- The answer to a request is valid exactly when its identifiers are, whatever else is in
it. -/
theorem valid_handle_iff (utc : ZonedDateTime) (request : ApplicationStateChangeRequest) :
    (ClientResource.handle utc request).Valid ↔ ValidIds request.toOnlineMessage := by
  have hanswers : Answers request.toOnlineMessage
      (ClientResource.handle utc request).toOnlineMessage :=
    answers_fillCommonResponse utc request.toOnlineMessage {}
  rw [← hanswers.validIds_iff]
  constructor
  · intro h
    exact h.message.toValidIds
  · intro h
    exact {
      message := ⟨h, required_some_iff.mpr (valid_newXMLGregorianCalendar utc)⟩
      responseResult := Option.some_ne_none _
      responseResultDescription := optional_some_iff.mpr (xmlString_lit (by decide)) }

theorem validIds_createRequest (utc : ZonedDateTime) (ari : Option JString) :
    ValidIds (createRequest utc ari).toOnlineMessage where
  transactionId := required_some_iff.mpr (xmlString_lit (by decide))
  requestId := required_some_iff.mpr (xmlString_lit (by decide))
  sourceId := required_some_iff.mpr (xmlString_lit (by decide))
  recipientId := required_some_iff.mpr (xmlString_lit (by decide))

/-- The address of the card holder. -/
theorem valid_creditCardDetails (utc : ZonedDateTime) (ari : Option JString) :
    Required CreditCardDetails.Valid (createRequest utc ari).creditCardDetails := by
  refine required_some_iff.mpr ?_
  exact {
    encryptedCreditCardNumber := required_some_iff.mpr (xmlString_lit (by decide))
    creditCardType := Option.some_ne_none _
    expirationDate := required_some_iff.mpr (valid_newXMLGregorianCalendar (utc.plusYears 5))
    cardHolderName := required_some_iff.mpr (xmlString_lit (by decide))
    billingAddress := required_some_iff.mpr {
      addressLine1 := required_some_iff.mpr (xmlString_lit (by decide))
      addressLine2 := optional_none
      cityOrTown := required_some_iff.mpr (xmlString_lit (by decide))
      county := optional_none
      postcode := required_some_iff.mpr (xmlString_lit (by decide))
      countryCode := optional_some_iff.mpr (xmlString_lit (by decide))
      phoneNumber := required_some_iff.mpr (xmlString_lit (by decide)) }
    emailAddress := optional_some_iff.mpr (xmlString_lit (by decide))
    partnerReferenceId := optional_some_iff.mpr (xmlString_lit (by decide)) }

/-- The request that is made up is valid exactly when there is a reference and it can be
written in XML. -/
theorem valid_createRequest_iff (utc : ZonedDateTime) (ari : Option JString) :
    (createRequest utc ari).Valid ↔ Required XmlString ari := by
  constructor
  · intro h
    exact h.amazonReferenceId
  · intro h
    exact {
      message := ⟨validIds_createRequest utc ari,
        required_some_iff.mpr (valid_newXMLGregorianCalendar utc)⟩
      amazonReferenceId := h
      applicationStatus := Option.some_ne_none _
      creditCardDetails := (valid_creditCardDetails utc ari).optional }

/-! ## The mock as its own client -/

section Loop

variable {J : JaxRs ApplicationStateChangeRequest ApplicationStateChangeResponse}
  {remote : Invocation J.WebTarget ApplicationStateChangeRequest →
    Remote ApplicationStateChangeResponse}

/-- An address that the validator refuses is logged, and the request goes to the default
address. -/
theorem run_handle_of_invalid (hJ : J.Promises remote) (hclient : J.newClient = .ok ())
    {webTarget : J.WebTarget} (htarget : J.target (some defaultEndpoint) = .ok webTarget)
    {clientEndpoint : Option JString} (hinvalid : J.isValidUrl clientEndpoint = false)
    (isAsync : Bool) (request : ApplicationStateChangeRequest)
    {response : ApplicationStateChangeResponse}
    (hremote : remote ⟨webTarget, [], request⟩ = .success (some response)) :
    (Notify.UKCBCCResource.handle J clientEndpoint isAsync request).run [] =
      .ok (some response) [.logged (invalidEndpoint clientEndpoint), .opened,
        sent isAsync ⟨webTarget, [], request⟩, .outcome (.ok (some response)), .closed] := by
  have hendpoint : ukEndpoint J clientEndpoint = some defaultEndpoint := by
    rw [ukEndpoint, hinvalid, if_neg Bool.false_ne_true]
  have hlog : ukLog J clientEndpoint = [.logged (invalidEndpoint clientEndpoint)] := by
    rw [ukLog, hinvalid, if_neg Bool.false_ne_true]
  have hknown : known isAsync (remote ⟨webTarget, [], request⟩) = .ok (some response) := by
    rw [hremote]
    cases isAsync <;> rfl
  rw [run_ukHandle, hendpoint, hlog, run_handleNotification hJ [] hclient htarget, hknown]
  rfl

/-- The card that is made up expires five years later on the same day, except that a leap day
becomes the day before. -/
theorem expirationDate_createRequest (utc : ZonedDateTime) (ari : Option JString) :
    ∃ details expiration, (createRequest utc ari).creditCardDetails = some details ∧
      details.expirationDate = some expiration ∧ expiration.year = utc.year + 5 ∧
      expiration.month = utc.month ∧
      expiration.day = if utc.month = 2 ∧ utc.day = 29 then 28 else utc.day := by
  refine ⟨_, _, rfl, rfl, rfl, rfl, ?_⟩
  show (utc.plusYears 5).day = _
  by_cases hleap : utc.month = 2 ∧ utc.day = 29
  · rw [if_pos hleap]
    exact leapDay_plusYears_five utc hleap.1 hleap.2
  · rw [if_neg hleap]
    rcases plusYears_day utc 5 with hsame | ⟨hmonth, hday, _⟩
    · exact hsame
    · exact absurd ⟨hmonth, hday⟩ hleap

/-- What `GET cbcc/uk` does with a reference and without an address that the validator
accepts, when the mock itself serves the default one over open connections.  However the
bytes arrive and whatever interceptors they pass, in both modes it returns a valid response,
which goes back to where the request came from, and closes its client; no more than the
identifiers of the request that it made up has to be read as it was written.  The card expires
five years later on the same day, except that a leap day becomes the day before. -/
theorem get_over_wire {σ τ ε σ' τ' ε' : Type} (hJ : J.Promises remote)
    (hclient : J.newClient = .ok ()) {webTarget : J.WebTarget}
    (htarget : J.target (some defaultEndpoint) = .ok webTarget)
    (utc later : ZonedDateTime) (ari : Option JString) (hari : Required XmlString ari)
    {there : Direction σ τ ε} (hthere : there.connection.Open)
    {back : Direction σ' τ' ε'} (hback : back.connection.Open)
    {requests : Codec ApplicationStateChangeRequest}
    (hrequests : (createRequest utc ari).Valid → ∃ request,
      requests.unmarshal (requests.marshal (createRequest utc ari)).flatten = some request ∧
        request.toOnlineMessage = (createRequest utc ari).toOnlineMessage)
    {responses : Codec ApplicationStateChangeResponse}
    (hresponses : (ClientResource.handle later (createRequest utc ari)).Valid →
      responses.unmarshal
          (responses.marshal (ClientResource.handle later (createRequest utc ari))).flatten =
        some (ClientResource.handle later (createRequest utc ari)))
    (hmock : remote ⟨webTarget, [], createRequest utc ari⟩ =
      overWire there back requests responses (ClientResource.handle later)
        (createRequest utc ari))
    (clientEndpoint : Option JString) (hinvalid : J.isValidUrl clientEndpoint = false)
    (isAsync : Bool) :
    ∃ response, (UKCBCCResource.get J utc clientEndpoint isAsync ari).run [] =
        .ok (some response) [.logged (invalidEndpoint clientEndpoint), .opened,
          sent isAsync ⟨webTarget, [], createRequest utc ari⟩,
          .outcome (.ok (some response)), .closed] ∧
      response.Valid ∧
      Answers (createRequest utc ari).toOnlineMessage response.toOnlineMessage ∧
      ∃ details expiration, (createRequest utc ari).creditCardDetails = some details ∧
        details.expirationDate = some expiration ∧ expiration.year = utc.year + 5 ∧
        expiration.month = utc.month ∧
        expiration.day = if utc.month = 2 ∧ utc.day = 29 then 28 else utc.day := by
  obtain ⟨request, hrequest, hmessage⟩ := hrequests ((valid_createRequest_iff utc ari).mpr hari)
  have hvalid : (ClientResource.handle later (createRequest utc ari)).Valid :=
    (valid_handle_iff later _).mpr (validIds_createRequest utc ari)
  have hresponse := hresponses hvalid
  rw [← handle_congr later hmessage] at hresponse
  have hanswered : overWire there back requests responses (ClientResource.handle later)
      (createRequest utc ari) = .success (some (ClientResource.handle later request)) :=
    (overWire_of_readable there back hrequest hresponse).1
      ⟨accepts_of_open hthere _ _, accepts_of_open hback _ _⟩
  rw [hanswered, handle_congr later hmessage] at hmock
  exact ⟨_, run_handle_of_invalid hJ hclient htarget hinvalid isAsync _ hmock, hvalid,
    answers_fillCommonResponse later _ {}, expirationDate_createRequest utc ari⟩

end Loop

/-! ## A leap day -/

def leapDay : ZonedDateTime where
  year := 2016
  month := 2
  day := 29
  hour := 3
  minute := 48
  second := 31
  nano := 460000000
  year_pos := by decide
  month_range := by decide
  day_range := by decide
  time_range := by decide

/-- What is made up on a leap day, for two references. -/
def leapDayRequests : List ApplicationStateChangeRequest :=
  [createRequest leapDay (some (lit "A85")), createRequest leapDay (some (lit "A86"))]

/-- The mock at its own address, over open connections. -/
def leapDayMock : Invocation JString ApplicationStateChangeRequest →
    Remote ApplicationStateChangeResponse :=
  loopback defaultEndpoint (wireTo openConnection) (wireTo openConnection)
    (tableCodec leapDayRequests) (tableCodec (leapDayRequests.map (ClientResource.handle leapDay)))
    (ClientResource.handle leapDay)

/-- A card that is made up on a leap day, without an address. -/
theorem get_over_wire_leapDay :
    ∃ response, (UKCBCCResource.get (clientOf leapDayMock) leapDay none true
          (some (lit "A86"))).run [] =
        .ok (some response) [.logged (invalidEndpoint none), .opened,
          sent true ⟨defaultEndpoint, [], createRequest leapDay (some (lit "A86"))⟩,
          .outcome (.ok (some response)), .closed] ∧
      response.Valid ∧
      ∃ details expiration,
        (createRequest leapDay (some (lit "A86"))).creditCardDetails = some details ∧
          details.expirationDate = some expiration ∧ expiration.year = 2021 ∧
          expiration.month = 2 ∧ expiration.day = 28 := by
  have hmem : createRequest leapDay (some (lit "A86")) ∈ leapDayRequests :=
    List.mem_cons_of_mem _ (List.mem_singleton_self _)
  obtain ⟨response, hrun, hvalid, _, hexpires⟩ := get_over_wire (clientOf_promises leapDayMock)
    rfl rfl leapDay leapDay (some (lit "A86"))
    (required_some_iff.mpr (xmlString_lit (by decide))) openConnection_open openConnection_open
    (fun _ => ⟨_, unmarshal_tableCodec hmem (by decide), rfl⟩)
    (fun _ => unmarshal_tableCodec (List.mem_map_of_mem hmem) (by decide))
    (loopback_of_address _ _ _ _ _ _ _ _) none rfl true
  exact ⟨response, hrun, hvalid, hexpires⟩

end Cbcc

end Mockbank
