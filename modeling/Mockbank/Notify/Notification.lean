import Mockbank.Jvm.Statement
import Mockbank.Jvm.Text

/-!
# Notifications

The two `notify` handlers send a request to a remote party through a JAX-RS client, in
the thread of the caller or through a `Future`, and close the client in a `finally` block.

Main results:

- Theorem `run_handleNotification`: what a handler returns or throws and what it has done
  by then.
- Theorem `asyncAgrees_handleNotification_iff`: the two modes agree when the remote party
  succeeds.
- Theorem `notify_async_agrees_iff`: so they do for both handlers.
-/

namespace Mockbank
namespace Notify

open Jvm

variable {Q E : Type}

/-! ## The remote party -/

/-- A response whose status is not successful. -/
structure Refusal where
  status : Nat
  entity : List UInt8
  unsuccessful : status < 200 ∨ 300 ≤ status

/-- The connection failed, or the entity of a successful response could not be read. -/
inductive ProcessingFailure where
  | connection
  | unmarshalling
deriving DecidableEq

/-- What comes of a request: a successful response with or without an entity, another
response, or none that can be read. -/
inductive Remote (E : Type) where
  | success (entity : Option E)
  | refusal (response : Refusal)
  | failure (cause : ProcessingFailure)

/-- What leaves a handler when it does not return. -/
inductive Throwable where
  | generalSecurity
  | illegalArgument
  | nullPointer
  | webApplication (response : Refusal)
  | processing (cause : ProcessingFailure)
  | execution (cause : Throwable)

/-- What `Invocation.invoke` makes of the behaviour of the remote party. -/
def Remote.outcome : Remote E → Except Throwable (Option E)
  | .success entity => .ok entity
  | .refusal response => .error (.webApplication response)
  | .failure cause => .error (.processing cause)

/-! ## The client -/

/-- The built request: its target, the headers that were added and its entity. -/
structure Invocation (WebTarget Q : Type) where
  webTarget : WebTarget
  headers : List (JString × JString)
  entity : Q

/-- What the handlers call of JAX-RS and of the validator of addresses.  The absence of a
header is `none`. -/
structure JaxRs (Q E : Type) where
  WebTarget : Type
  Future : Type
  newClient : Except Throwable Unit
  target : Option JString → Except Throwable WebTarget
  invoke : Invocation WebTarget Q → Except Throwable (Option E)
  submit : Invocation WebTarget Q → Future
  get : Future → Except Throwable (Option E)
  isValidUrl : Option JString → Bool

/-- What JAX-RS promises about the two ways to send a request: `invoke` returns the entity
or throws, and the future returns the same entity or throws an `ExecutionException` around
the same exception. -/
structure JaxRs.Promises (J : JaxRs Q E) (remote : Invocation J.WebTarget Q → Remote E) :
    Prop where
  invoke : ∀ invocation, J.invoke invocation = (remote invocation).outcome
  get_submit : ∀ invocation,
    J.get (J.submit invocation) = (remote invocation).outcome.mapError .execution

/-- What a handler has done with its client, and the lines of its log. -/
inductive Event (WebTarget Q E : Type) where
  | logged (line : JString)
  | opened
  | invoked (invocation : Invocation WebTarget Q)
  | submitted (invocation : Invocation WebTarget Q)
  | outcome (result : Except Throwable (Option E))
  | closed

/-- The events of a call so far. -/
abbrev Trace (J : JaxRs Q E) : Type :=
  List (Event J.WebTarget Q E)

/-! ## The code -/

section Code

variable (J : JaxRs Q E)

def record (event : Event J.WebTarget Q E) : EStateM Throwable (Trace J) Unit :=
  modify (· ++ [event])

/-- `SSLUtil.IgnoreSSLClient`. -/
def ignoreSSLClient : EStateM Throwable (Trace J) Unit := do
  complete J.newClient
  record J .opened

/-- `Invocation.invoke`, which waits for the outcome. -/
def invoke (invocation : Invocation J.WebTarget Q) : EStateM Throwable (Trace J) (Option E) := do
  record J (.invoked invocation)
  record J (.outcome (J.invoke invocation))
  complete (J.invoke invocation)

/-- `Invocation.submit`, which does not wait. -/
def submit (invocation : Invocation J.WebTarget Q) : EStateM Throwable (Trace J) J.Future := do
  record J (.submitted invocation)
  return J.submit invocation

/-- `Future.get`, which waits for the outcome. -/
def get (future : J.Future) : EStateM Throwable (Trace J) (Option E) := do
  record J (.outcome (J.get future))
  complete (J.get future)

/-- What the two handlers have in common. -/
def handleNotification (headers : List (JString × JString)) (clientEndpoint : Option JString)
    (isAsync : Bool) (request : Q) : EStateM Throwable (Trace J) (Option E) := do
  ignoreSSLClient J
  let webTarget ← complete (J.target clientEndpoint)
  let invocation : Invocation J.WebTarget Q := ⟨webTarget, headers, request⟩
  try
    if isAsync then
      let futureResponse ← submit J invocation
      get J futureResponse
    else
      invoke J invocation
  finally
    record J .closed

/-- The header of the GIL France handler. -/
def gilHeaders : List (JString × JString) :=
  [(lit "Message-Type", lit "LoanStatusNotificationRequest")]

/-- `GILFranceResource.handle` for `POST gil/fr/notify`. -/
def GILFranceResource.handle (clientEndpoint : Option JString) (isAsync : Bool) (request : Q) :
    EStateM Throwable (Trace J) (Option E) :=
  handleNotification J gilHeaders clientEndpoint isAsync request

/-- The address that the UK CBCC handler falls back on. -/
def defaultEndpoint : JString :=
  lit "http://localhost:8080/client/cbcc/uk"

/-- `"Invalid URL endpoint: " + clientEndpoint` -/
def invalidEndpoint (clientEndpoint : Option JString) : JString :=
  lit "Invalid URL endpoint: " ++ clientEndpoint.getD (lit "null")

/-- `UKCBCCResource.handle` for `POST cbcc/uk/notify`. -/
def UKCBCCResource.handle (clientEndpoint : Option JString) (isAsync : Bool) (request : Q) :
    EStateM Throwable (Trace J) (Option E) := do
  let mut clientEndpoint := clientEndpoint
  if !J.isValidUrl clientEndpoint then
    record J (.logged (invalidEndpoint clientEndpoint))
    clientEndpoint := some defaultEndpoint
  handleNotification J [] clientEndpoint isAsync request

end Code

/-! ## What a handler does -/

/-- What is known once the remote party has behaved: `get` wraps what `invoke` throws. -/
def known (isAsync : Bool) (remote : Remote E) : Except Throwable (Option E) :=
  if isAsync then remote.outcome.mapError .execution else remote.outcome

/-- The first event of a request. -/
def sent {W : Type} (isAsync : Bool) (invocation : Invocation W Q) : Event W Q E :=
  if isAsync then .submitted invocation else .invoked invocation

section Run

variable {J : JaxRs Q E} {remote : Invocation J.WebTarget Q → Remote E}

theorem run_ignoreSSLClient (hclient : J.newClient = .ok ()) (events : Trace J) :
    (ignoreSSLClient J).run events = .ok () (events ++ [.opened]) := by
  have hnew : (complete J.newClient : EStateM Throwable (Trace J) Unit).run events =
      .ok () events := by
    rw [hclient]
    rfl
  unfold ignoreSSLClient
  rw [run_bind_of_ok hnew]
  rfl

/-- In either mode the `try` block sends the request and waits for the outcome. -/
theorem run_send (hJ : J.Promises remote) (isAsync : Bool) (invocation : Invocation J.WebTarget Q)
    (events : Trace J) :
    (if isAsync then submit J invocation >>= get J else invoke J invocation).run events =
      ended (known isAsync (remote invocation))
        (events ++ [sent isAsync invocation] ++
          [.outcome (known isAsync (remote invocation))]) := by
  cases isAsync with
  | false =>
      unfold known
      rw [if_neg Bool.false_ne_true, ← hJ.invoke invocation]
      rfl
  | true =>
      unfold known
      rw [if_pos rfl, ← hJ.get_submit invocation]
      rfl

/-- A request is sent, its outcome becomes known, the client is closed, and the handler
ends with that outcome. -/
theorem run_handleNotification (hJ : J.Promises remote) (headers : List (JString × JString))
    {clientEndpoint : Option JString} {webTarget : J.WebTarget} (hclient : J.newClient = .ok ())
    (htarget : J.target clientEndpoint = .ok webTarget) (isAsync : Bool) (request : Q)
    (events : Trace J) :
    (handleNotification J headers clientEndpoint isAsync request).run events =
      ended (known isAsync (remote ⟨webTarget, headers, request⟩))
        (events ++ [.opened] ++ [sent isAsync ⟨webTarget, headers, request⟩] ++
          [.outcome (known isAsync (remote ⟨webTarget, headers, request⟩))] ++ [.closed]) := by
  have hcomplete : (complete (J.target clientEndpoint) : EStateM Throwable (Trace J) _).run
      (events ++ [.opened]) = .ok webTarget (events ++ [.opened]) := by
    rw [htarget]
    rfl
  unfold handleNotification
  rw [run_bind_of_ok (run_ignoreSSLClient hclient events), run_bind_of_ok hcomplete]
  exact run_tryFinally_of_ok
    (run_send hJ isAsync ⟨webTarget, headers, request⟩ (events ++ [.opened])) rfl

/-- Without a client, or without a target for the address, nothing is sent. -/
theorem run_handleNotification_unsent (headers : List (JString × JString))
    {clientEndpoint : Option JString}
    (h : ¬ ∃ webTarget, J.newClient = .ok () ∧ J.target clientEndpoint = .ok webTarget)
    (request : Q) (events : Trace J) :
    ∃ cause, ∃ opened : Trace J, (opened = [] ∨ opened = [.opened]) ∧ ∀ isAsync,
      (handleNotification J headers clientEndpoint isAsync request).run events =
        .error cause (events ++ opened) := by
  cases hclient : J.newClient with
  | error cause =>
      refine ⟨cause, [], Or.inl rfl, ?_⟩
      intro isAsync
      have hnew : (ignoreSSLClient J).run events = .error cause events := by
        apply run_bind_of_error
        rw [hclient]
        rfl
      rw [List.append_nil]
      exact run_bind_of_error hnew
  | ok _ =>
      cases htarget : J.target clientEndpoint with
      | ok webTarget => exact absurd ⟨webTarget, hclient, htarget⟩ h
      | error cause =>
          refine ⟨cause, [.opened], Or.inr rfl, ?_⟩
          intro isAsync
          unfold handleNotification
          rw [run_bind_of_ok (run_ignoreSSLClient hclient events)]
          apply run_bind_of_error
          rw [htarget]
          rfl

end Run

/-! ## When the modes agree -/

/-- The modes can be told by what is returned or thrown exactly when the remote party does
not succeed. -/
theorem known_eq_iff (remote : Remote E) :
    known true remote = known false remote ↔ ∃ entity, remote = .success entity := by
  cases remote with
  | success entity => exact iff_of_true rfl ⟨entity, rfl⟩
  | refusal response => simp [known, Remote.outcome, Except.mapError]
  | failure cause => simp [known, Remote.outcome, Except.mapError]

section Agreement

variable {J : JaxRs Q E} {remote : Invocation J.WebTarget Q → Remote E}

/-- Whenever the client is closed, the outcome has become known, and the client of a request
that was sent is closed. -/
structure ClosedAfterOutcome (result : Except Throwable (Option E)) (events : Trace J) : Prop where
  outcome : ∀ before after, events = before ++ .closed :: after → .outcome result ∈ before
  closed : ∀ invocation, .invoked invocation ∈ events ∨ .submitted invocation ∈ events →
    .closed ∈ events

/-- Nothing was sent and no client was closed. -/
theorem closedAfterOutcome_of_not_mem {events : Trace J} (h : .closed ∉ events)
    (hsent : ∀ invocation, .invoked invocation ∉ events ∧ .submitted invocation ∉ events)
    (result : Except Throwable (Option E)) : ClosedAfterOutcome result events where
  outcome before after hevents := by
    rw [hevents] at h
    exact absurd (List.mem_append_right before (List.mem_cons_self ..)) h
  closed invocation hmem := by
    rcases hmem with hinvoked | hsubmitted
    · exact absurd hinvoked (hsent invocation).1
    · exact absurd hsubmitted (hsent invocation).2

/-- The client is closed as the last thing. -/
theorem closedAfterOutcome_append {events : Trace J} (h : .closed ∉ events)
    {result : Except Throwable (Option E)} (hresult : .outcome result ∈ events) :
    ClosedAfterOutcome result (events ++ [.closed]) where
  outcome before after hevents := by
    rcases List.append_eq_append_iff.mp hevents with ⟨rest, hbefore, _⟩ | ⟨rest, hsplit, hrest⟩
    · rw [hbefore]
      exact List.mem_append_left rest hresult
    · cases rest with
      | nil =>
          rw [List.append_nil] at hsplit
          rwa [← hsplit]
      | cons event rest =>
          have hclosed : Event.closed = event := (List.cons.inj hrest).1
          rw [hsplit, ← hclosed] at h
          exact absurd (List.mem_append_right before (List.mem_cons_self ..)) h
  closed _ _ := List.mem_append_right events (List.mem_singleton_self _)

/-- A handler does the same in both modes: it returns the same response or throws the same
exception, and closes the client of its request once that is known. -/
structure AsyncAgrees (handle : Bool → EStateM Throwable (Trace J) (Option E))
    (events : Trace J) : Prop where
  ending : ending ((handle true).run events) = ending ((handle false).run events)
  closed : ∀ isAsync, ClosedAfterOutcome (Jvm.ending ((handle isAsync).run events))
    (finalState ((handle isAsync).run events))

/-- Only the runs count. -/
theorem AsyncAgrees.of_run {handle handle' : Bool → EStateM Throwable (Trace J) (Option E)}
    {events events' : Trace J} (h : AsyncAgrees handle events)
    (hrun : ∀ isAsync, (handle' isAsync).run events' = (handle isAsync).run events) :
    AsyncAgrees handle' events' where
  ending := by
    rw [hrun, hrun]
    exact h.ending
  closed isAsync := by
    rw [hrun]
    exact h.closed isAsync

/-- The remote party succeeds with the request, if it gets one. -/
def SucceedsIfSent (J : JaxRs Q E) (remote : Invocation J.WebTarget Q → Remote E)
    (headers : List (JString × JString)) (clientEndpoint : Option JString) (request : Q) : Prop :=
  ∀ webTarget, J.newClient = .ok () ∧ J.target clientEndpoint = .ok webTarget →
    ∃ entity, remote ⟨webTarget, headers, request⟩ = .success entity

/-- Nothing has been sent and no client has been closed. -/
def Unused (events : Trace J) : Prop :=
  .closed ∉ events ∧
    ∀ invocation, .invoked invocation ∉ events ∧ .submitted invocation ∉ events

/-- The client of a request is closed once the outcome is known, whatever the remote party
does. -/
theorem closedAfterOutcome_handleNotification (hJ : J.Promises remote)
    (headers : List (JString × JString)) (clientEndpoint : Option JString) (request : Q)
    {events : Trace J} (hevents : Unused events) (isAsync : Bool) :
    ClosedAfterOutcome
      (ending ((handleNotification J headers clientEndpoint isAsync request).run events))
      (finalState ((handleNotification J headers clientEndpoint isAsync request).run events)) := by
  by_cases hsent : ∃ webTarget, J.newClient = .ok () ∧ J.target clientEndpoint = .ok webTarget
  · rcases hsent with ⟨webTarget, hclient, htarget⟩
    rw [run_handleNotification hJ headers hclient htarget, ending_ended, finalState_ended]
    apply closedAfterOutcome_append
    · cases isAsync <;> simp [hevents.1, sent]
    · simp
  · rcases run_handleNotification_unsent headers hsent request events with
      ⟨cause, opened, hopened, hrun⟩
    rw [hrun]
    apply closedAfterOutcome_of_not_mem
    · rcases hopened with rfl | rfl <;> simp [finalState, hevents.1]
    · intro invocation
      rcases hopened with rfl | rfl <;> simp [finalState, hevents.2 invocation]

/-- The two modes agree exactly when the remote party succeeds with the request. -/
theorem asyncAgrees_handleNotification_iff (hJ : J.Promises remote)
    (headers : List (JString × JString)) (clientEndpoint : Option JString) (request : Q)
    {events : Trace J} (hevents : Unused events) :
    AsyncAgrees
        (fun isAsync => handleNotification J headers clientEndpoint isAsync request) events ↔
      SucceedsIfSent J remote headers clientEndpoint request := by
  constructor
  · intro h webTarget hsent
    have hending := h.ending
    simp only [run_handleNotification hJ headers hsent.1 hsent.2, ending_ended] at hending
    exact (known_eq_iff _).mp hending
  · intro h
    refine ⟨?_, closedAfterOutcome_handleNotification hJ headers clientEndpoint request hevents⟩
    by_cases hsent : ∃ webTarget, J.newClient = .ok () ∧ J.target clientEndpoint = .ok webTarget
    · rcases hsent with ⟨webTarget, hclient, htarget⟩
      simp only [run_handleNotification hJ headers hclient htarget, ending_ended]
      exact (known_eq_iff _).mpr (h webTarget ⟨hclient, htarget⟩)
    · rcases run_handleNotification_unsent headers hsent request events with ⟨cause, _, _, hrun⟩
      simp only [hrun]

/-! ## The two handlers -/

/-- The address that the UK CBCC handler notifies. -/
def ukEndpoint (J : JaxRs Q E) (clientEndpoint : Option JString) : Option JString :=
  if J.isValidUrl clientEndpoint then clientEndpoint else some defaultEndpoint

/-- What the UK CBCC handler logs about an address. -/
def ukLog (J : JaxRs Q E) (clientEndpoint : Option JString) : Trace J :=
  if J.isValidUrl clientEndpoint then [] else [.logged (invalidEndpoint clientEndpoint)]

/-- The UK CBCC handler checks the address, in the same way in both modes. -/
theorem run_ukHandle (clientEndpoint : Option JString) (isAsync : Bool) (request : Q)
    (events : Trace J) :
    (UKCBCCResource.handle J clientEndpoint isAsync request).run events =
      (handleNotification J [] (ukEndpoint J clientEndpoint) isAsync request).run
        (events ++ ukLog J clientEndpoint) := by
  unfold UKCBCCResource.handle ukEndpoint ukLog
  by_cases hvalid : J.isValidUrl clientEndpoint = true
  · simp only [hvalid, if_true, List.append_nil]
    rfl
  · rw [Bool.not_eq_true] at hvalid
    simp only [hvalid]
    rfl

theorem unused_ukLog (clientEndpoint : Option JString) : Unused (ukLog J clientEndpoint) := by
  unfold ukLog Unused
  by_cases hvalid : J.isValidUrl clientEndpoint = true
  · simp [hvalid]
  · simp [hvalid]

theorem asyncAgrees_gilHandle_iff (hJ : J.Promises remote) (clientEndpoint : Option JString)
    (request : Q) :
    AsyncAgrees (fun isAsync => GILFranceResource.handle J clientEndpoint isAsync request) [] ↔
      SucceedsIfSent J remote gilHeaders clientEndpoint request :=
  asyncAgrees_handleNotification_iff hJ gilHeaders clientEndpoint request
    ⟨List.not_mem_nil, fun _ => ⟨List.not_mem_nil, List.not_mem_nil⟩⟩

theorem asyncAgrees_ukHandle_iff (hJ : J.Promises remote) (clientEndpoint : Option JString)
    (request : Q) :
    AsyncAgrees (fun isAsync => UKCBCCResource.handle J clientEndpoint isAsync request) [] ↔
      SucceedsIfSent J remote [] (ukEndpoint J clientEndpoint) request := by
  have hlog := unused_ukLog (J := J) clientEndpoint
  rw [← asyncAgrees_handleNotification_iff hJ [] (ukEndpoint J clientEndpoint) request hlog]
  constructor
  · intro h
    exact h.of_run fun isAsync => (run_ukHandle clientEndpoint isAsync request []).symm
  · intro h
    exact h.of_run fun isAsync => run_ukHandle clientEndpoint isAsync request []

/-- For both handlers, with every request and address: sent asynchronously, a notification
ends as it does synchronously exactly when the remote party succeeds; in both modes the
client is closed once the outcome is known. -/
theorem notify_async_agrees_iff (hJ : J.Promises remote) (clientEndpoint : Option JString)
    (request : Q) :
    (AsyncAgrees (fun isAsync => GILFranceResource.handle J clientEndpoint isAsync request) [] ↔
        SucceedsIfSent J remote gilHeaders clientEndpoint request) ∧
      (AsyncAgrees (fun isAsync => UKCBCCResource.handle J clientEndpoint isAsync request) [] ↔
        SucceedsIfSent J remote [] (ukEndpoint J clientEndpoint) request) :=
  ⟨asyncAgrees_gilHandle_iff hJ clientEndpoint request,
    asyncAgrees_ukHandle_iff hJ clientEndpoint request⟩

end Agreement

/-! ## A client to compute with -/

/-- A client of a remote party.  Addresses are not looked into, and the future holds what
`get` is going to do. -/
def clientOf (remote : Invocation JString Q → Remote E) : JaxRs Q E where
  WebTarget := JString
  Future := Except Throwable (Option E)
  newClient := .ok ()
  target clientEndpoint :=
    match clientEndpoint with
    | none => .error .nullPointer
    | some address => .ok address
  invoke invocation := (remote invocation).outcome
  submit invocation := (remote invocation).outcome.mapError .execution
  get future := future
  isValidUrl := Option.isSome

theorem clientOf_promises (remote : Invocation JString Q → Remote E) :
    (clientOf remote).Promises remote where
  invoke _ := rfl
  get_submit _ := rfl

theorem target_clientOf (remote : Invocation JString Q → Remote E) (address : JString) :
    (clientOf remote).target (some address) = .ok address :=
  rfl

/-- The response of a remote party that does not know the address. -/
def notFound : Refusal where
  status := 404
  entity := []
  unsuccessful := by decide

/-- A remote party that accepts what is sent to one address and knows no other. -/
def atAddress (address : JString) (invocation : Invocation JString Unit) : Remote Unit :=
  if invocation.webTarget = address then .success (some ()) else .refusal notFound

/-- A notification that is sent to the right address. -/
theorem notify_async_agrees_success :
    AsyncAgrees (fun isAsync => GILFranceResource.handle
        (clientOf (atAddress (lit "http://a"))) (some (lit "http://a")) isAsync ()) [] ∧
      AsyncAgrees (fun isAsync => UKCBCCResource.handle
        (clientOf (atAddress (lit "http://a"))) (some (lit "http://a")) isAsync ()) [] := by
  have h := notify_async_agrees_iff (clientOf_promises (atAddress (lit "http://a")))
    (some (lit "http://a")) ()
  have hknown : ∀ headers, SucceedsIfSent (clientOf (atAddress (lit "http://a")))
      (atAddress (lit "http://a")) headers (some (lit "http://a")) () := by
    intro headers webTarget hsent
    obtain rfl := Except.ok.inj hsent.2
    exact ⟨some (), if_pos rfl⟩
  exact ⟨h.1.mpr (hknown gilHeaders), h.2.mpr (hknown [])⟩

theorem lit_ne : lit "http://b" ≠ lit "http://a" := by
  rw [lit_ofList, lit_ofList]
  decide

theorem not_succeedsIfSent_notFound (headers : List (JString × JString)) :
    ¬ SucceedsIfSent (clientOf (atAddress (lit "http://a"))) (atAddress (lit "http://a")) headers
      (some (lit "http://b")) () := by
  intro h
  have hrefused : atAddress (lit "http://a") ⟨lit "http://b", headers, ()⟩ = .refusal notFound :=
    if_neg lit_ne
  obtain ⟨entity, hentity⟩ := h (lit "http://b") ⟨rfl, rfl⟩
  have hsame : Remote.refusal notFound = .success entity := hrefused.symm.trans hentity
  contradiction

/-- A notification that is sent to another address: asynchronously, neither handler throws
what it throws synchronously. -/
theorem not_asyncAgrees_notFound :
    (clientOf (atAddress (lit "http://a"))).Promises (atAddress (lit "http://a")) ∧
      ¬ AsyncAgrees (fun isAsync => GILFranceResource.handle
        (clientOf (atAddress (lit "http://a"))) (some (lit "http://b")) isAsync ()) [] ∧
      ¬ AsyncAgrees (fun isAsync => UKCBCCResource.handle
        (clientOf (atAddress (lit "http://a"))) (some (lit "http://b")) isAsync ()) [] := by
  have hpromises := clientOf_promises (atAddress (lit "http://a"))
  refine ⟨hpromises, ?_, ?_⟩
  · rw [asyncAgrees_gilHandle_iff hpromises]
    exact not_succeedsIfSent_notFound gilHeaders
  · rw [asyncAgrees_ukHandle_iff hpromises]
    exact not_succeedsIfSent_notFound []

end Notify
end Mockbank
