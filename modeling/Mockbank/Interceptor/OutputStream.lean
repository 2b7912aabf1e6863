import Mockbank.Jvm.Charset
import Mockbank.Jvm.Statement

/-!
# Output streams of a response

What a response is written to: the stream underneath, any call of which may throw, and the
`ByteArrayOutputStream`s in front of it, which never do.

Main results:

- Theorem `ending_writeEach_iff`: when calls one after the other come to their end.
- Theorem `bytes_writeEach_eq_iff`: when they let all bytes through.
- Theorems `run_writeTo_underlying` and `run_writeTo_byteArray`: what a writer does to
  either kind of stream.
- Theorem `completes_ofBytes_iff`: a stream that takes single bytes does not see the calls.
-/

namespace Mockbank

open Jvm

variable {σ ε : Type}

/-! ## The stream underneath -/

/-- What became of some bytes: the state of the stream behind them, those that went through
and how it ended. -/
structure Delivery (σ ε : Type) where
  sink : σ
  bytes : List UInt8
  ending : Except ε Unit

/-- A stream as its `write(byte[], int, int)`.  A call lets the bytes through in order up to
the place where it throws, and all of them if it returns.  It may throw with all bytes
through, and also when there are none to write. -/
structure Sink (σ ε : Type) where
  write : σ → List UInt8 → Delivery σ ε
  bytes_prefix : ∀ sink bs, (write sink bs).bytes <+: bs
  bytes_of_ok : ∀ sink bs, (write sink bs).ending = .ok () → (write sink bs).bytes = bs

/-- The ending of a statement in a `try` block that catches some exceptions. -/
def uncaught (caught : ε → Bool) : Except ε Unit → Except ε Unit
  | .ok _ => .ok ()
  | .error e => if caught e then .ok () else .error e

/-- No exception is caught. -/
def nothing : ε → Bool :=
  fun _ => false

@[simp]
theorem uncaught_ok (caught : ε → Bool) : uncaught caught (.ok ()) = .ok () :=
  rfl

@[simp]
theorem uncaught_nothing (ending : Except ε Unit) : uncaught nothing ending = ending := by
  cases ending <;> rfl

/-- Calls one after the other, up to one that throws what is not caught. -/
def Sink.writeEach (stream : Sink σ ε) (caught : ε → Bool) (sink : σ) :
    List (List UInt8) → Delivery σ ε
  | [] => ⟨sink, [], .ok ()⟩
  | call :: calls =>
      let first := stream.write sink call
      match uncaught caught first.ending with
      | .ok _ =>
          let rest := stream.writeEach caught first.sink calls
          ⟨rest.sink, first.bytes ++ rest.bytes, rest.ending⟩
      | .error e => ⟨first.sink, first.bytes, .error e⟩

/-- None of the calls throws what is not caught. -/
def Sink.Completes (stream : Sink σ ε) (caught : ε → Bool) : σ → List (List UInt8) → Prop
  | _, [] => True
  | sink, call :: calls =>
      uncaught caught (stream.write sink call).ending = .ok () ∧
        stream.Completes caught (stream.write sink call).sink calls

/-- Every call that is made lets its bytes through, and behind one that throws what is not
caught there are none left. -/
def Sink.TakesAll (stream : Sink σ ε) (caught : ε → Bool) : σ → List (List UInt8) → Prop
  | _, [] => True
  | sink, call :: calls =>
      (stream.write sink call).bytes = call ∧
        match uncaught caught (stream.write sink call).ending with
        | .ok _ => stream.TakesAll caught (stream.write sink call).sink calls
        | .error _ => calls.flatten = []

variable {stream : Sink σ ε} {caught : ε → Bool} {sink : σ} {call : List UInt8}

/-- After a call whose exception, if any, is caught the writer goes on. -/
theorem writeEach_cons_of_ok (h : uncaught caught (stream.write sink call).ending = .ok ())
    (calls : List (List UInt8)) :
    stream.writeEach caught sink (call :: calls) =
      ⟨(stream.writeEach caught (stream.write sink call).sink calls).sink,
        (stream.write sink call).bytes ++
          (stream.writeEach caught (stream.write sink call).sink calls).bytes,
        (stream.writeEach caught (stream.write sink call).sink calls).ending⟩ := by
  simp only [Sink.writeEach, h]

/-- After a call whose exception is not caught the writer ends with it. -/
theorem writeEach_cons_of_error {e : ε}
    (h : uncaught caught (stream.write sink call).ending = .error e)
    (calls : List (List UInt8)) :
    stream.writeEach caught sink (call :: calls) =
      ⟨(stream.write sink call).sink, (stream.write sink call).bytes, .error e⟩ := by
  simp only [Sink.writeEach, h]

/-- A single call of which nothing is caught. -/
theorem writeEach_singleton (stream : Sink σ ε) (sink : σ) (call : List UInt8) :
    stream.writeEach nothing sink [call] = stream.write sink call := by
  have huncaught := uncaught_nothing (stream.write sink call).ending
  cases hending : (stream.write sink call).ending with
  | ok _ =>
      rw [writeEach_cons_of_ok (huncaught.trans hending), Sink.writeEach, List.append_nil]
      simp only [← hending]
  | error e => rw [writeEach_cons_of_error (huncaught.trans hending), ← hending]

theorem completes_singleton_iff {stream : Sink σ ε} {sink : σ} {call : List UInt8} :
    stream.Completes nothing sink [call] ↔ (stream.write sink call).ending = .ok () := by
  simp [Sink.Completes]

theorem takesAll_singleton_iff {stream : Sink σ ε} {sink : σ} {call : List UInt8} :
    stream.TakesAll nothing sink [call] ↔ (stream.write sink call).bytes = call := by
  unfold Sink.TakesAll
  cases uncaught nothing (stream.write sink call).ending <;> simp [Sink.TakesAll]

/-- Calls come to their end when none of them throws what is not caught. -/
theorem ending_writeEach_iff (stream : Sink σ ε) (caught : ε → Bool) (sink : σ)
    (calls : List (List UInt8)) :
    (stream.writeEach caught sink calls).ending = .ok () ↔
      stream.Completes caught sink calls := by
  induction calls generalizing sink with
  | nil => simp [Sink.writeEach, Sink.Completes]
  | cons call calls ih =>
      unfold Sink.Completes
      cases hending : uncaught caught (stream.write sink call).ending with
      | ok _ =>
          rw [writeEach_cons_of_ok hending]
          simp [ih]
      | error e =>
          rw [writeEach_cons_of_error hending]
          simp

/-- No more bytes get through than were handed over. -/
theorem length_bytes_write_le (stream : Sink σ ε) (sink : σ) (call : List UInt8) :
    (stream.write sink call).bytes.length ≤ call.length :=
  (stream.bytes_prefix sink call).length_le

/-- So it is for all calls together. -/
theorem length_bytes_writeEach_le (stream : Sink σ ε) (caught : ε → Bool) (sink : σ)
    (calls : List (List UInt8)) :
    (stream.writeEach caught sink calls).bytes.length ≤ calls.flatten.length := by
  induction calls generalizing sink with
  | nil => exact Nat.le_refl _
  | cons call calls ih =>
      have hfirst := length_bytes_write_le stream sink call
      have hrest := ih (stream.write sink call).sink
      rw [List.flatten_cons, List.length_append]
      cases hending : uncaught caught (stream.write sink call).ending with
      | ok _ =>
          rw [writeEach_cons_of_ok hending, List.length_append]
          omega
      | error e =>
          rw [writeEach_cons_of_error hending]
          exact Nat.le_add_right_of_le hfirst

/-- All bytes go through when every call lets its own through. -/
theorem bytes_writeEach_eq_iff (stream : Sink σ ε) (caught : ε → Bool) (sink : σ)
    (calls : List (List UInt8)) :
    (stream.writeEach caught sink calls).bytes = calls.flatten ↔
      stream.TakesAll caught sink calls := by
  induction calls generalizing sink with
  | nil => simp [Sink.writeEach, Sink.TakesAll]
  | cons call calls ih =>
      have hfirst := length_bytes_write_le stream sink call
      unfold Sink.TakesAll
      rw [List.flatten_cons]
      cases hending : uncaught caught (stream.write sink call).ending with
      | ok _ =>
          have hrest := length_bytes_writeEach_le stream caught (stream.write sink call).sink calls
          rw [writeEach_cons_of_ok hending]
          simp only [← ih]
          constructor
          · intro h
            -- neither part can make up for bytes that the other has lost
            have hlen := congrArg List.length h
            rw [List.length_append, List.length_append] at hlen
            exact List.append_inj h (by omega)
          · intro h
            rw [h.1, h.2]
      | error e =>
          rw [writeEach_cons_of_error hending]
          constructor
          · intro h
            have hlen := congrArg List.length h
            simp only [List.length_append] at hlen
            have hnone : calls.flatten = [] := List.eq_nil_of_length_eq_zero (by omega)
            rw [hnone, List.append_nil] at h
            exact ⟨h, hnone⟩
          · intro h
            rw [h.2, List.append_nil, h.1]

/-- Calls of which none throws let all bytes through, whatever would be caught. -/
theorem Sink.Completes.takesAll {sink : σ} {calls : List (List UInt8)}
    (h : stream.Completes nothing sink calls) (caught : ε → Bool) :
    stream.TakesAll caught sink calls := by
  induction calls generalizing sink with
  | nil => trivial
  | cons call calls ih =>
      obtain ⟨hcall, hcalls⟩ := h
      rw [uncaught_nothing] at hcall
      refine ⟨stream.bytes_of_ok sink call hcall, ?_⟩
      rw [hcall]
      exact ih hcalls

/-- Calls of which none throws come to their end, whatever would be caught. -/
theorem Sink.Completes.of_nothing {sink : σ} {calls : List (List UInt8)}
    (h : stream.Completes nothing sink calls) (caught : ε → Bool) :
    stream.Completes caught sink calls := by
  induction calls generalizing sink with
  | nil => trivial
  | cons call calls ih =>
      obtain ⟨hcall, hcalls⟩ := h
      rw [uncaught_nothing] at hcall
      refine ⟨?_, ih hcalls⟩
      rw [hcall, uncaught_ok]

/-! ## Streams that take single bytes -/

/-- One kind of stream: it takes the bytes of a call one by one, up to the one at which it
throws, and a call without bytes does nothing. -/
def deliver (accept : σ → UInt8 → Except ε σ) (sink : σ) : List UInt8 → Delivery σ ε
  | [] => ⟨sink, [], .ok ()⟩
  | b :: bs =>
      match accept sink b with
      | .ok sink' =>
          let rest := deliver accept sink' bs
          ⟨rest.sink, b :: rest.bytes, rest.ending⟩
      | .error e => ⟨sink, [], .error e⟩

/-- Every byte of a list is taken. -/
def AcceptsAll (accept : σ → UInt8 → Except ε σ) : σ → List UInt8 → Prop
  | _, [] => True
  | sink, b :: bs => ∃ sink', accept sink b = .ok sink' ∧ AcceptsAll accept sink' bs

section Bytes

variable {accept : σ → UInt8 → Except ε σ}

theorem deliver_cons_of_ok {sink sink' : σ} {b : UInt8} (h : accept sink b = .ok sink')
    (bs : List UInt8) :
    deliver accept sink (b :: bs) =
      ⟨(deliver accept sink' bs).sink, b :: (deliver accept sink' bs).bytes,
        (deliver accept sink' bs).ending⟩ := by
  rw [deliver, h]

theorem deliver_cons_of_error {sink : σ} {b : UInt8} {e : ε} (h : accept sink b = .error e)
    (bs : List UInt8) : deliver accept sink (b :: bs) = ⟨sink, [], .error e⟩ := by
  rw [deliver, h]

/-- What a byte stream lets through is a start of what it was handed. -/
theorem bytes_deliver_prefix (accept : σ → UInt8 → Except ε σ) (sink : σ) (bs : List UInt8) :
    (deliver accept sink bs).bytes <+: bs := by
  induction bs generalizing sink with
  | nil => exact List.prefix_rfl
  | cons b bs ih =>
      cases haccept : accept sink b with
      | ok sink' =>
          rw [deliver_cons_of_ok haccept]
          exact (List.prefix_cons_inj b).mpr (ih sink')
      | error e =>
          rw [deliver_cons_of_error haccept]
          exact List.nil_prefix

/-- A call returns when every byte is taken. -/
theorem ending_deliver_iff (accept : σ → UInt8 → Except ε σ) (sink : σ) (bs : List UInt8) :
    (deliver accept sink bs).ending = .ok () ↔ AcceptsAll accept sink bs := by
  induction bs generalizing sink with
  | nil => simp [deliver, AcceptsAll]
  | cons b bs ih =>
      unfold AcceptsAll
      cases haccept : accept sink b with
      | ok sink' =>
          rw [deliver_cons_of_ok haccept]
          simp [ih]
      | error e =>
          rw [deliver_cons_of_error haccept]
          simp

/-- A call that returns lets all bytes through. -/
theorem bytes_deliver_of_ok (sink : σ) (bs : List UInt8)
    (h : (deliver accept sink bs).ending = .ok ()) : (deliver accept sink bs).bytes = bs := by
  induction bs generalizing sink with
  | nil => rfl
  | cons b bs ih =>
      cases haccept : accept sink b with
      | ok sink' =>
          rw [deliver_cons_of_ok haccept] at h ⊢
          rw [ih sink' h]
      | error e =>
          rw [deliver_cons_of_error haccept] at h
          contradiction

/-- The stream that takes single bytes. -/
def Sink.ofBytes (accept : σ → UInt8 → Except ε σ) : Sink σ ε where
  write := deliver accept
  bytes_prefix := bytes_deliver_prefix accept
  bytes_of_ok := bytes_deliver_of_ok

/-- Accepting bytes is accepting the first and, after it, the others. -/
theorem acceptsAll_cons_iff {sink : σ} {b : UInt8} {bs : List UInt8} :
    AcceptsAll accept sink (b :: bs) ↔
      ∃ sink', accept sink b = .ok sink' ∧ AcceptsAll accept sink' bs :=
  Iff.rfl

/-- What follows is taken by the stream behind what precedes. -/
theorem acceptsAll_append (accept : σ → UInt8 → Except ε σ) (sink : σ) (bs cs : List UInt8) :
    AcceptsAll accept sink (bs ++ cs) ↔
      AcceptsAll accept sink bs ∧ AcceptsAll accept (deliver accept sink bs).sink cs := by
  induction bs generalizing sink with
  | nil => simp [AcceptsAll, deliver]
  | cons b bs ih =>
      rw [List.cons_append, acceptsAll_cons_iff, acceptsAll_cons_iff]
      cases haccept : accept sink b with
      | ok sink' =>
          rw [deliver_cons_of_ok haccept]
          simp [ih]
      | error e => simp

/-- A stream that takes single bytes does not see in which calls they come. -/
theorem completes_ofBytes_iff (accept : σ → UInt8 → Except ε σ) (sink : σ)
    (calls : List (List UInt8)) :
    (Sink.ofBytes accept).Completes nothing sink calls ↔
      AcceptsAll accept sink calls.flatten := by
  induction calls generalizing sink with
  | nil => simp [Sink.Completes, AcceptsAll]
  | cons call calls ih =>
      unfold Sink.Completes
      rw [uncaught_nothing, ih, List.flatten_cons, acceptsAll_append,
        ← ending_deliver_iff accept sink call]
      rfl

end Bytes

/-! ## The state while a response is written -/

/-- A reference to a stream: the one underneath, or a `ByteArrayOutputStream` by the
order of creation. -/
inductive OutputStream where
  | underlying
  | byteArray (id : Nat)
deriving DecidableEq

/-- The streams, the output stream of the context and the lines of the log. -/
structure WriterState (σ : Type) where
  sink : σ
  delivered : List UInt8
  byteArrays : List (List UInt8)
  outputStream : OutputStream
  log : List JString

/-- The content of a `ByteArrayOutputStream`. -/
def WriterState.content (w : WriterState σ) (id : Nat) : List UInt8 :=
  w.byteArrays.getD id []

/-- The bytes go to the end of a `ByteArrayOutputStream`. -/
def WriterState.append (w : WriterState σ) (id : Nat) (bs : List UInt8) : WriterState σ :=
  { w with byteArrays := w.byteArrays.modify id (· ++ bs) }

/-- The stream underneath has been written to. -/
def WriterState.receive (w : WriterState σ) (delivery : Delivery σ ε) : WriterState σ :=
  { w with
    sink := delivery.sink
    delivered := w.delivered ++ delivery.bytes }

/-- `write(byte[])` on a stream. -/
def write (stream : Sink σ ε) : OutputStream → List UInt8 → EStateM ε (WriterState σ) Unit
  | .byteArray id, bs => modify (·.append id bs)
  | .underlying, bs => do
      let w ← get
      set (w.receive (stream.write w.sink bs))
      complete (stream.write w.sink bs).ending

/-! ## Writers -/

/-- What a message body writer does: a sequence of writes, the exceptions of a write that it
catches before it goes on to the next one, and its ending unless another one gets through. -/
structure BodyWriter (ε : Type) where
  chunks : List (List UInt8)
  caught : ε → Bool
  ending : Except ε Unit

/-- The calls that a writer makes, each with its exception caught or not. -/
def writeChunks (stream : Sink σ ε) (caught : ε → Bool) (out : OutputStream) :
    List (List UInt8) → EStateM ε (WriterState σ) Unit
  | [] => pure ()
  | chunk :: chunks => do
      try
        write stream out chunk
      catch e =>
        complete (uncaught caught (.error e))
      writeChunks stream caught out chunks

/-- `MessageBodyWriter.writeTo`. -/
def BodyWriter.writeTo (stream : Sink σ ε) (writer : BodyWriter ε) (out : OutputStream) :
    EStateM ε (WriterState σ) Unit := do
  writeChunks stream writer.caught out writer.chunks
  complete writer.ending

/-! ## What a writer does to a stream -/

/-- A write to the underlying stream is one call of it. -/
theorem run_write_underlying (stream : Sink σ ε) (w : WriterState σ) (bs : List UInt8) :
    (write stream .underlying bs).run w =
      ended (stream.write w.sink bs).ending (w.receive (stream.write w.sink bs)) :=
  rfl

/-- A write to a buffer goes behind what the buffer holds. -/
theorem run_write_byteArray (stream : Sink σ ε) (w : WriterState σ) (id : Nat)
    (bs : List UInt8) : (write stream (.byteArray id) bs).run w = .ok () (w.append id bs) :=
  rfl

/-- Writing nothing to a buffer changes nothing. -/
theorem append_nil (w : WriterState σ) (k : Nat) : w.append k [] = w := by
  have hid : (fun bs : List UInt8 => bs ++ []) = id := by
    ext bs : 1
    exact List.append_nil bs
  unfold WriterState.append
  rw [hid, List.modify_id]

/-- Two writes to a buffer are one write of both. -/
theorem append_append (w : WriterState σ) (id : Nat) (bs cs : List UInt8) :
    (w.append id bs).append id cs = w.append id (bs ++ cs) := by
  simp [WriterState.append, List.modify_modify_eq, Function.comp_def]

/-- Chunks in a `ByteArrayOutputStream` follow one another. -/
theorem run_writeChunks_byteArray (stream : Sink σ ε) (caught : ε → Bool) (w : WriterState σ)
    (id : Nat) (chunks : List (List UInt8)) :
    (writeChunks stream caught (.byteArray id) chunks).run w =
      .ok () (w.append id chunks.flatten) := by
  induction chunks generalizing w with
  | nil =>
      rw [List.flatten_nil, append_nil]
      rfl
  | cons chunk chunks ih =>
      unfold writeChunks
      rw [run_bind_of_ok (run_tryCatch_of_ok (run_write_byteArray stream w id chunk)), ih,
        append_append, List.flatten_cons]

/-- A chunk on the stream underneath, when some exceptions are caught. -/
theorem run_tryWrite_underlying (stream : Sink σ ε) (caught : ε → Bool) (w : WriterState σ)
    (chunk : List UInt8) :
    (tryCatch (write stream .underlying chunk)
        fun e => complete (uncaught caught (.error e))).run w =
      ended (uncaught caught (stream.write w.sink chunk).ending)
        (w.receive (stream.write w.sink chunk)) := by
  have hwrite := run_write_underlying stream w chunk
  cases hending : (stream.write w.sink chunk).ending with
  | ok _ =>
      rw [hending] at hwrite
      exact run_tryCatch_of_ok hwrite
  | error e =>
      rw [hending] at hwrite
      exact run_tryCatch_of_error hwrite

/-- Chunks on the stream underneath are calls one after the other. -/
theorem run_writeChunks_underlying (stream : Sink σ ε) (caught : ε → Bool) (w : WriterState σ)
    (chunks : List (List UInt8)) :
    (writeChunks stream caught .underlying chunks).run w =
      ended (stream.writeEach caught w.sink chunks).ending
        (w.receive (stream.writeEach caught w.sink chunks)) := by
  induction chunks generalizing w with
  | nil => simp [writeChunks, Sink.writeEach, WriterState.receive]
  | cons chunk chunks ih =>
      have hwrite := run_tryWrite_underlying stream caught w chunk
      unfold writeChunks
      cases hending : uncaught caught (stream.write w.sink chunk).ending with
      | error e =>
          rw [hending] at hwrite
          rw [run_bind_of_error hwrite, writeEach_cons_of_error hending]
          rfl
      | ok _ =>
          rw [hending] at hwrite
          rw [run_bind_of_ok hwrite, ih, writeEach_cons_of_ok hending]
          unfold WriterState.receive
          rw [List.append_assoc]

/-- A writer on the stream underneath. -/
theorem run_writeTo_underlying (stream : Sink σ ε) (writer : BodyWriter ε)
    (w : WriterState σ) :
    (writer.writeTo stream .underlying).run w =
      ended ((stream.writeEach writer.caught w.sink writer.chunks).ending >>=
          fun _ => writer.ending)
        (w.receive (stream.writeEach writer.caught w.sink writer.chunks)) :=
  run_bind_complete (run_writeChunks_underlying stream writer.caught w writer.chunks)

/-- A writer on a `ByteArrayOutputStream`. -/
theorem run_writeTo_byteArray (stream : Sink σ ε) (writer : BodyWriter ε)
    (w : WriterState σ) (id : Nat) :
    (writer.writeTo stream (.byteArray id)).run w =
      ended writer.ending (w.append id writer.chunks.flatten) :=
  run_bind_of_ok (run_writeChunks_byteArray stream writer.caught w id writer.chunks)

end Mockbank
