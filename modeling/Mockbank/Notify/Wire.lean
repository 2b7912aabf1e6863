import Mockbank.Interceptor.Connection
import Mockbank.Notify.Notification

/-!
# Notifications byte by byte

The client that a `notify` handler uses has the logging interceptors registered, and so has
the party at the other end when it is the mock itself.  This file follows a request and its
response through the interceptors of both and over two connections; what comes of that is
one behaviour of a remote party.

Main results:

- Theorems `transmit_of_accepted` and `transmit_of_not_accepted`: what comes of a message, and
  what is logged of it.
- Theorem `overWire_of_readable`: what comes of a request.
-/

namespace Mockbank
namespace Notify

open Jvm

variable {σ τ ε σ' τ' ε' α Q E : Type}

/-- How messages of a class are written to a stream, in chunks, and read from one. -/
structure Codec (α : Type) where
  marshal : α → List (List UInt8)
  unmarshal : List UInt8 → Option α

/-- One direction of an exchange: the connection that a message goes to, how its bytes arrive,
and how many interceptors there are at either end. -/
structure Direction (σ τ ε : Type) where
  connection : Connection τ ε
  arrive : List UInt8 → Arrival σ
  body_arrive : ∀ bs, (arrive bs).body = bs
  writers : Nat
  readers : Nat

/-- A message body reader reads the stream of the context. -/
def readFrom (codec : Codec α) (incoming : InputStream σ) (is : σ ⊕ ByteArrayInputStream) :
    EStateM ProcessingFailure (RequestLogging.ReaderState σ) α :=
  match codec.unmarshal ((RequestLogging.streams incoming).remaining is) with
  | some a => pure a
  | none => throw .unmarshalling

/-- What the interceptors at both ends log of a message, and what is read. -/
structure Transmission (α : Type) where
  writerLog : List JString
  readerLog : List JString
  result : Except ProcessingFailure α

/-- A message body writer writes a message and catches nothing. -/
def Codec.writer (codec : Codec α) (a : α) : BodyWriter ε where
  chunks := codec.marshal a
  caught := nothing
  ending := .ok ()

def Direction.transmit (d : Direction σ τ ε) (codec : Codec α) (a : α) : Transmission α :=
  match (proceed d.connection.stream (codec.writer a) d.writers).run d.connection.writer with
  | .error _ writer => ⟨writer.log, [], .error .connection⟩
  | .ok _ writer =>
      let arrival := d.arrive writer.delivered
      match (RequestLogging.proceed arrival.stream (readFrom codec arrival.stream) d.readers).run
          arrival.reader with
      | .ok a reader => ⟨writer.log, reader.log, .ok a⟩
      | .error cause reader => ⟨writer.log, reader.log, .error cause⟩

/-- The response to a request that cannot be read. -/
def badRequest : Refusal where
  status := 400
  entity := []
  unsuccessful := by decide

/-- A request goes to a resource, and what the resource returns comes back. -/
def overWire (there : Direction σ τ ε) (back : Direction σ' τ' ε') (requests : Codec Q)
    (responses : Codec E) (handle : Q → E) (request : Q) : Remote E :=
  match (there.transmit requests request).result with
  | .error .connection => .failure .connection
  | .error .unmarshalling => .refusal badRequest
  | .ok request =>
      match (back.transmit responses (handle request)).result with
      | .error cause => .failure cause
      | .ok response => .success (some response)

/-! ## One direction -/

/-- The connection accepts a message in the calls in which it comes: one, when there are
interceptors in front of it. -/
def Direction.Accepts (d : Direction σ τ ε) (codec : Codec α) (a : α) : Prop :=
  d.connection.stream.Completes nothing d.connection.sink
    ((codec.writer a : BodyWriter ε).behind d.writers).chunks

theorem accepts_of_open {d : Direction σ τ ε} (h : d.connection.Open) (codec : Codec α) (a : α) :
    d.Accepts codec a :=
  h _

/-- What reads a message that has arrived. -/
theorem run_readFrom (d : Direction σ τ ε) (codec : Codec α) (bs : List UInt8) :
    ∃ reader, (RequestLogging.proceed (d.arrive bs).stream (readFrom codec (d.arrive bs).stream)
        d.readers).run (d.arrive bs).reader =
        ended ((codec.unmarshal bs).elim (.error .unmarshalling) .ok) reader ∧
      reader.log = List.replicate d.readers (decodeUtf8String bs) := by
  have hbody := d.body_arrive bs
  generalize d.arrive bs = arrival at hbody
  have hremaining : (RequestLogging.streams arrival.stream).remaining
      (behind arrival.stream d.readers arrival.reader).inputStream = bs :=
    (body_behind arrival.stream d.readers arrival.reader).trans hbody
  refine ⟨behind arrival.stream d.readers arrival.reader, ?_, ?_⟩
  · rw [run_proceed_behind, readFrom, hremaining]
    cases codec.unmarshal bs <;> rfl
  · rw [log_behind, body_reader, hbody]
    rfl

/-- A message that the connection accepts arrives; every interceptor at either end has logged
its bytes as text, whether or not it can be read. -/
theorem transmit_of_accepted {d : Direction σ τ ε} {codec : Codec α} {a : α}
    (h : d.Accepts codec a) :
    d.transmit codec a =
      ⟨List.replicate d.writers (decodeUtf8String (codec.marshal a).flatten),
        List.replicate d.readers (decodeUtf8String (codec.marshal a).flatten),
        (codec.unmarshal (codec.marshal a).flatten).elim (.error .unmarshalling) .ok⟩ := by
  obtain ⟨writer, hwrite, hdelivered, hwriterLog⟩ := run_proceed_of_completes h
  replace hwrite : (proceed d.connection.stream (codec.writer a) d.writers).run
      d.connection.writer = .ok () writer := hwrite
  replace hdelivered : writer.delivered = (codec.marshal a).flatten := hdelivered
  obtain ⟨reader, hread, hreaderLog⟩ := run_readFrom d codec (codec.marshal a).flatten
  unfold Direction.transmit
  rw [hwrite]
  simp only [hdelivered, hread, hwriterLog]
  cases codec.unmarshal (codec.marshal a).flatten with
  | none => simp [hreaderLog, Codec.writer]
  | some a' => simp [hreaderLog, Codec.writer]

/-- Of a message that the connection does not accept nothing is read, but the interceptors in
front of the connection have logged it. -/
theorem transmit_of_not_accepted {d : Direction σ τ ε} {codec : Codec α} {a : α}
    (h : ¬ d.Accepts codec a) :
    d.transmit codec a =
      ⟨List.replicate d.writers (decodeUtf8String (codec.marshal a).flatten), [],
        .error .connection⟩ := by
  obtain ⟨writer, hwrite, _, hwriterLog⟩ :=
    run_proceed_connection d.connection (codec.writer a : BodyWriter ε) d.writers
  have hcaught : ((codec.writer a : BodyWriter ε).behind d.writers).caught = nothing := by
    cases d.writers <;> rfl
  rw [Direction.Accepts, ← ending_writeEach_iff] at h
  rw [hcaught] at hwrite
  unfold Direction.transmit
  cases hending : (d.connection.stream.writeEach nothing d.connection.sink
      ((codec.writer a : BodyWriter ε).behind d.writers).chunks).ending with
  | ok _ => exact absurd hending h
  | error e =>
      rw [hending] at hwrite
      replace hwrite : (proceed d.connection.stream (codec.writer a) d.writers).run
        d.connection.writer = .error e writer := hwrite
      rw [hwrite]
      simp only [hwriterLog]
      rfl

/-! ## There and back -/

/-- A request that can be read, and whose answer can be, is answered as far as the connections
accept both of them. -/
theorem overWire_of_readable (there : Direction σ τ ε) (back : Direction σ' τ' ε')
    {requests : Codec Q} {responses : Codec E} {handle : Q → E} {request request' : Q}
    {response : E}
    (hrequest : requests.unmarshal (requests.marshal request).flatten = some request')
    (hresponse : responses.unmarshal (responses.marshal (handle request')).flatten =
      some response) :
    (there.Accepts requests request ∧ back.Accepts responses (handle request') →
      overWire there back requests responses handle request = .success (some response)) ∧
    (¬ (there.Accepts requests request ∧ back.Accepts responses (handle request')) →
      overWire there back requests responses handle request = .failure .connection) := by
  unfold overWire
  by_cases hthere : there.Accepts requests request
  · rw [transmit_of_accepted hthere]
    simp only [hrequest, Option.elim_some]
    by_cases hback : back.Accepts responses (handle request')
    · rw [transmit_of_accepted hback]
      simp only [hresponse, Option.elim_some]
      exact ⟨fun _ => trivial, fun hnot => absurd ⟨hthere, hback⟩ hnot⟩
    · rw [transmit_of_not_accepted hback]
      exact ⟨fun hboth => absurd hboth.2 hback, fun _ => rfl⟩
  · rw [transmit_of_not_accepted hthere]
    exact ⟨fun hboth => absurd hboth.1 hthere, fun _ => rfl⟩

/-! ## A wire to compute with -/

/-- A remote party that is there at one address. -/
def loopback (address : JString) (there : Direction σ τ ε) (back : Direction σ' τ' ε')
    (requests : Codec Q) (responses : Codec E) (handle : Q → E)
    (invocation : Invocation JString Q) : Remote E :=
  if invocation.webTarget = address then
    overWire there back requests responses handle invocation.entity
  else .refusal notFound

theorem loopback_of_address (address : JString) (there : Direction σ τ ε)
    (back : Direction σ' τ' ε') (requests : Codec Q) (responses : Codec E) (handle : Q → E)
    (headers : List (JString × JString)) (request : Q) :
    loopback address there back requests responses handle ⟨address, headers, request⟩ =
      overWire there back requests responses handle request :=
  if_pos rfl

/-- A message arrives byte by byte, behind one interceptor and in front of two. -/
def wireTo (connection : Connection τ ε) : Direction Schedule τ ε where
  connection := connection
  arrive bs := ⟨scheduled, ⟨bs, [1]⟩⟩
  body_arrive bs := body_scheduled bs [1]
  writers := 1
  readers := 2

/-- A codec for some messages, each of which is written as its number. -/
def tableCodec [DecidableEq α] (table : List α) : Codec α where
  marshal a := [[0x3C], [UInt8.ofNat (table.idxOf a)], [0x3E]]
  unmarshal bs :=
    match bs with
    | [0x3C, n, 0x3E] => table[n.toNat]?
    | _ => none

theorem unmarshal_tableCodec [DecidableEq α] {table : List α} {a : α} (ha : a ∈ table)
    (hsize : table.length ≤ 256) :
    (tableCodec table).unmarshal ((tableCodec table).marshal a).flatten = some a := by
  have hlt := List.idxOf_lt_length_iff.mpr ha
  have hindex : (UInt8.ofNat (table.idxOf a)).toNat = table.idxOf a := by
    rw [UInt8.toNat_ofNat']
    exact Nat.mod_eq_of_lt (by omega)
  show table[(UInt8.ofNat (table.idxOf a)).toNat]? = some a
  rw [hindex]
  exact List.getElem?_idxOf ha

end Notify
end Mockbank
