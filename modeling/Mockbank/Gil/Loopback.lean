import Mockbank.Gil.Handlers
import Mockbank.Notify.Wire

/-!
# Notifications of the French mock to itself

`POST gil/fr/notify` with the address of the client that the mock itself serves.

Main results:

- Theorem `conforms_clientResource`: how that client answers.
- Theorem `notify_over_wire`: what the handler makes of it over connections that may break.
-/

namespace Mockbank

open Jvm Schema Notify

namespace Gil

/-- A valid notification is answered as the protocol asks. -/
theorem conforms_clientResource (utc : ZonedDateTime) {request : LoanStatusNotificationRequest}
    (hvalid : (Request.loanStatusNotification request).Valid) :
    Conforms (.loanStatusNotification request)
      (.loanStatusNotification (ClientResource.handle utc request)) where
  matchingClass := trivial
  echoes := echoes_fillCommonResponse utc request.toMessage {}
  valid := {
    message := valid_fillCommonResponse utc hvalid.1 {}
    fields := (documented_allOk {}).valid
    extension := trivial }
  documentedCode := (documented_allOk {}).code
  loanId := trivial

section Loopback

variable {J : JaxRs LoanStatusNotificationRequest LoanStatusNotificationResponse}
  {remote : Invocation J.WebTarget LoanStatusNotificationRequest →
    Remote LoanStatusNotificationResponse}

/-- What `POST gil/fr/notify` does with a valid notification when the mock itself serves the
address, whatever interceptors the messages pass, however their bytes arrive and wherever the
connections break.  It returns a response, which is as the protocol asks, exactly when the
connections accept both messages, and throws what the mode makes of a broken connection
otherwise; in both cases it has waited for the outcome and closed its client. -/
theorem notify_over_wire {σ τ ε σ' τ' ε' : Type} (hJ : J.Promises remote)
    (hclient : J.newClient = .ok ()) {clientEndpoint : Option JString} {webTarget : J.WebTarget}
    (htarget : J.target clientEndpoint = .ok webTarget) (there : Direction σ τ ε)
    (back : Direction σ' τ' ε') {requests : Codec LoanStatusNotificationRequest}
    {responses : Codec LoanStatusNotificationResponse} {request : LoanStatusNotificationRequest}
    (hvalid : (Request.loanStatusNotification request).Valid) (later : ZonedDateTime)
    (hrequest : requests.unmarshal (requests.marshal request).flatten = some request)
    (hresponse : (Response.loanStatusNotification (ClientResource.handle later request)).Valid →
      responses.unmarshal (responses.marshal (ClientResource.handle later request)).flatten =
        some (ClientResource.handle later request))
    (hmock : remote ⟨webTarget, gilHeaders, request⟩ =
      overWire there back requests responses (ClientResource.handle later) request)
    (isAsync : Bool) :
    ∃ result : Except Throwable (Option LoanStatusNotificationResponse),
      (Notify.GILFranceResource.handle J clientEndpoint isAsync request).run [] =
        ended result [.opened, sent isAsync ⟨webTarget, gilHeaders, request⟩, .outcome result,
          .closed] ∧
      (there.Accepts requests request ∧
          back.Accepts responses (ClientResource.handle later request) →
        ∃ response, result = .ok (some response) ∧
          Conforms (.loanStatusNotification request) (.loanStatusNotification response)) ∧
      (¬ (there.Accepts requests request ∧
          back.Accepts responses (ClientResource.handle later request)) →
        result = .error (if isAsync then .execution (.processing .connection)
          else .processing .connection)) := by
  have hconforms := conforms_clientResource later hvalid
  obtain ⟨hanswered, hbroken⟩ :=
    overWire_of_readable there back hrequest (hresponse hconforms.valid)
  rw [← hmock] at hanswered hbroken
  refine ⟨known isAsync (remote ⟨webTarget, gilHeaders, request⟩),
    run_handleNotification hJ gilHeaders hclient htarget isAsync request [], ?_, ?_⟩
  · intro haccepted
    refine ⟨_, ?_, hconforms⟩
    rw [hanswered haccepted]
    cases isAsync <;> rfl
  · intro hnot
    rw [hbroken hnot]
    cases isAsync <;> rfl

end Loopback

/-- An accepted loan. -/
def sampleNotification : LoanStatusNotificationRequest where
  toMessage := sampleMessage
  responseResult := some .ACCEPTED
  responseResultCode := some 0
  externalLoanId := some (lit "1")
  loanApplicationId := some (lit "1")

theorem valid_sampleNotification : (Request.loanStatusNotification sampleNotification).Valid := by
  refine ⟨valid_sampleMessage, required_some_iff.mpr ?_, required_some_iff.mpr ?_, ?_⟩
  · rw [lit_ofList]
    decide
  · rw [lit_ofList]
    decide
  · exact {
      responseResult := Option.some_ne_none _
      responseResultCode := optional_some_iff.mpr
        (show ResponseResultType.ACCEPTED.Documents 0 from rfl).valid
      responseResultDescription := optional_none }

/-- The mock at an address, with a connection that its response goes to. -/
def sampleMock {τ ε : Type} (connection : Connection τ ε) :
    Invocation JString LoanStatusNotificationRequest → Remote LoanStatusNotificationResponse :=
  loopback (lit "http://a") (wireTo openConnection) (wireTo connection)
    (tableCodec [{}, sampleNotification])
    (tableCodec [ClientResource.handle sampleClock {},
      ClientResource.handle sampleClock sampleNotification])
    (ClientResource.handle sampleClock)

theorem accepts_openConnection {α : Type} (codec : Codec α) (a : α) :
    (wireTo openConnection).Accepts codec a :=
  accepts_of_open openConnection_open codec a

/-- The connection of the response breaks behind the first byte, or it does not. -/
theorem notify_over_wire_cut :
    (Notify.GILFranceResource.handle (clientOf (sampleMock ⟨.ofBytes acceptUpTo, 1⟩))
        (some (lit "http://a")) true sampleNotification).run [] =
      .error (.execution (.processing .connection))
        [.opened, sent true ⟨lit "http://a", gilHeaders, sampleNotification⟩,
          .outcome (.error (.execution (.processing .connection))), .closed] ∧
    ∃ response, (Notify.GILFranceResource.handle (clientOf (sampleMock openConnection))
        (some (lit "http://a")) true sampleNotification).run [] =
      .ok (some response)
        [.opened, sent true ⟨lit "http://a", gilHeaders, sampleNotification⟩,
          .outcome (.ok (some response)), .closed] ∧
      Conforms (.loanStatusNotification sampleNotification)
        (.loanStatusNotification response) := by
  have hrequest : sampleNotification ∈ [{}, sampleNotification] :=
    List.mem_cons_of_mem _ (List.mem_singleton_self _)
  have hresponse : ClientResource.handle sampleClock sampleNotification ∈
      [ClientResource.handle sampleClock {},
        ClientResource.handle sampleClock sampleNotification] :=
    List.mem_cons_of_mem _ (List.mem_singleton_self _)
  replace hrequest := unmarshal_tableCodec hrequest (by decide)
  replace hresponse := unmarshal_tableCodec hresponse (by decide)
  constructor
  · obtain ⟨result, hrun, _, hbroken⟩ := notify_over_wire
      (clientOf_promises (sampleMock ⟨.ofBytes acceptUpTo, 1⟩)) rfl
      (target_clientOf _ (lit "http://a")) (wireTo openConnection)
      (wireTo ⟨.ofBytes acceptUpTo, 1⟩) valid_sampleNotification sampleClock hrequest
      (fun _ => hresponse) (loopback_of_address _ _ _ _ _ _ _ _) true
    have hcut : ¬ (wireTo ⟨.ofBytes acceptUpTo, 1⟩).Accepts
        (tableCodec [ClientResource.handle sampleClock {},
          ClientResource.handle sampleClock sampleNotification])
        (ClientResource.handle sampleClock sampleNotification) := by
      rintro ⟨hcall, _⟩
      contradiction
    rw [hrun, hbroken fun haccepts => hcut haccepts.2]
    rfl
  · obtain ⟨result, hrun, hanswered, _⟩ := notify_over_wire
      (clientOf_promises (sampleMock openConnection)) rfl (target_clientOf _ (lit "http://a"))
      (wireTo openConnection) (wireTo openConnection) valid_sampleNotification sampleClock hrequest
      (fun _ => hresponse) (loopback_of_address _ _ _ _ _ _ _ _) true
    obtain ⟨response, hresult, hconforms⟩ :=
      hanswered ⟨accepts_openConnection _ _, accepts_openConnection _ _⟩
    refine ⟨response, ?_, hconforms⟩
    rw [hrun, hresult]
    rfl

end Gil

end Mockbank
