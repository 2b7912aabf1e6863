import Mockbank.Interceptor.PrintStream
import Mockbank.Interceptor.RequestLogging

/-!
# Both ends of a connection

The stream that a message arrives on and the stream that one goes to, and what interceptors
do at either end.

Main results:

- Theorem `run_proceed_behind`: what reads behind any number of interceptors.
- Theorem `run_proceed_connection`: what is written behind any number of interceptors.
- Theorem `run_proceed_of_open`: the same on a connection that accepts everything.
-/

namespace Mockbank

open Jvm

variable {σ τ ε α : Type}

/-- A message body on its way: a stream and its state. -/
structure Arrival (σ : Type) where
  stream : InputStream σ
  state : σ

/-- The bytes that arrive. -/
def Arrival.body (arrival : Arrival σ) : List UInt8 :=
  arrival.stream.remaining arrival.state

/-- The context before any interceptor has run. -/
def Arrival.reader (arrival : Arrival σ) : RequestLogging.ReaderState σ :=
  ⟨.inl arrival.state, [], 0⟩

theorem body_reader (arrival : Arrival σ) :
    arrival.reader.body arrival.stream = arrival.body :=
  rfl

/-- The stream that a message goes to. -/
structure Connection (τ ε : Type) where
  stream : Sink τ ε
  sink : τ

/-- The context before any interceptor has run. -/
def Connection.writer (connection : Connection τ ε) : WriterState τ :=
  ⟨connection.sink, [], [], .underlying, []⟩

/-- The stream accepts whatever is written to it, in whatever calls. -/
def Connection.Open (connection : Connection τ ε) : Prop :=
  ∀ calls, connection.stream.Completes nothing connection.sink calls

/-! ## Arrival -/

/-- The context behind so many interceptors. -/
def behind (incoming : InputStream σ) : Nat → RequestLogging.ReaderState σ →
    RequestLogging.ReaderState σ
  | 0, reader => reader
  | n + 1, reader => behind incoming n (reader.replaced incoming)

/-- Interceptors leave the body of the request as it is. -/
theorem body_behind (incoming : InputStream σ) (n : Nat)
    (reader : RequestLogging.ReaderState σ) :
    (behind incoming n reader).body incoming = reader.body incoming := by
  induction n generalizing reader with
  | zero => rfl
  | succ n ih => rw [behind, ih, RequestLogging.body_replaced]

/-- Each of them logs it. -/
theorem log_behind (incoming : InputStream σ) (n : Nat)
    (reader : RequestLogging.ReaderState σ) :
    (behind incoming n reader).log =
      reader.log ++ List.replicate n (decodeUtf8String (reader.body incoming)) := by
  induction n generalizing reader with
  | zero => exact (List.append_nil _).symm
  | succ n ih =>
      rw [behind, ih, RequestLogging.body_replaced, List.replicate_succ]
      simp [RequestLogging.ReaderState.replaced]

/-- What reads behind so many interceptors. -/
theorem run_proceed_behind (incoming : InputStream σ)
    (readFrom : σ ⊕ ByteArrayInputStream → EStateM ε (RequestLogging.ReaderState σ) α) (n : Nat)
    (reader : RequestLogging.ReaderState σ) :
    (RequestLogging.proceed incoming readFrom n).run reader =
      (readFrom (behind incoming n reader).inputStream).run (behind incoming n reader) := by
  induction n generalizing reader with
  | zero => rfl
  | succ n ih =>
      unfold RequestLogging.proceed
      rw [RequestLogging.run_aroundReadFrom, ih, behind]

/-! ## Departure -/

/-- A message goes to a connection as far as this accepts what it sees of the writer, and each
interceptor logs it whole. -/
theorem run_proceed_connection (connection : Connection τ ε) (writer : BodyWriter ε) (n : Nat) :
    ∃ w, (proceed connection.stream writer n).run connection.writer =
        ended ((connection.stream.writeEach (writer.behind n).caught connection.sink
          (writer.behind n).chunks).ending >>= fun _ => writer.ending) w ∧
      w.delivered = (connection.stream.writeEach (writer.behind n).caught connection.sink
        (writer.behind n).chunks).bytes ∧
      w.log = List.replicate n (decodeUtf8String writer.chunks.flatten) := by
  obtain ⟨w, hrun, hdelivered⟩ :=
    proceed_behind connection.stream writer n (w := connection.writer) rfl
  exact ⟨w, hrun, hdelivered.delivered, hdelivered.log⟩

/-- What accepts the calls of a writer gets all its bytes. -/
theorem run_proceed_of_completes {connection : Connection τ ε} {writer : BodyWriter ε} {n : Nat}
    (h : connection.stream.Completes nothing connection.sink (writer.behind n).chunks) :
    ∃ w, (proceed connection.stream writer n).run connection.writer = ended writer.ending w ∧
      w.delivered = writer.chunks.flatten ∧
      w.log = List.replicate n (decodeUtf8String writer.chunks.flatten) := by
  obtain ⟨w, hrun, hdelivered, hlog⟩ := run_proceed_connection connection writer n
  rw [(ending_writeEach_iff _ _ _ _).mpr (h.of_nothing _)] at hrun
  rw [(bytes_writeEach_eq_iff _ _ _ _).mpr (h.takesAll _), flatten_behind] at hdelivered
  exact ⟨w, hrun, hdelivered, hlog⟩

/-- A message goes through an open connection whole. -/
theorem run_proceed_of_open {connection : Connection τ ε} (hopen : connection.Open)
    (writer : BodyWriter ε) (n : Nat) :
    ∃ w, (proceed connection.stream writer n).run connection.writer = ended writer.ending w ∧
      w.delivered = writer.chunks.flatten ∧
      w.log = List.replicate n (decodeUtf8String writer.chunks.flatten) :=
  run_proceed_of_completes (hopen _)

/-! ## A connection to compute with -/

/-- A stream that accepts every call. -/
def openSink : Sink Unit Unit where
  write _ bs := ⟨(), bs, .ok ()⟩
  bytes_prefix _ _ := List.prefix_rfl
  bytes_of_ok _ _ _ := rfl

/-- A connection that accepts every call. -/
def openConnection : Connection Unit Unit := ⟨openSink, ()⟩

theorem openConnection_open : openConnection.Open := by
  intro calls
  induction calls with
  | nil => trivial
  | cons call calls ih => exact ⟨rfl, ih⟩

/-- The bytes of a schedule are its body. -/
theorem body_scheduled (bs : List UInt8) (counts : List Nat) :
    (⟨scheduled, ⟨bs, counts⟩⟩ : Arrival Schedule).body = bs :=
  rfl

end Mockbank
