import Mockbank.Interceptor.OutputStream

/-!
# `ResponseLoggingInterceptor`

The interceptor puts a buffer in the place of the output stream, lets the rest of the
chain write to it, and in a `finally` block logs the buffer, copies it to the stream that
was there before and puts that stream back.

Main results:

- Theorem `proceed_byteArray`: any number of interceptors in front of a buffer write to
  it what the writer alone would write.
- Theorem `proceed_underlying`: what they write to the stream underneath, how they end
  and which stream they leave in the context.
- Theorem `transparent_iff`: when the interceptors cannot be told from the writer alone.
- Theorem `indifferent_ofBytes_iff`: what that asks of a stream that takes single bytes.
-/

namespace Mockbank

open Jvm

variable {σ ε : Type}

/-! ## The code -/

def getOutputStream : EStateM ε (WriterState σ) OutputStream := do
  return (← get).outputStream

def setOutputStream (out : OutputStream) : EStateM ε (WriterState σ) Unit :=
  modify fun w => { w with outputStream := out }

/-- `new ByteArrayOutputStream()`. -/
def newByteArrayOutputStream : EStateM ε (WriterState σ) Nat :=
  modifyGet fun w =>
    (w.byteArrays.length, { w with byteArrays := w.byteArrays ++ [[]] })

def logInfo (line : JString) : EStateM ε (WriterState σ) Unit :=
  modify fun w => { w with log := w.log ++ [line] }

/-- The `finally` block.  `baos.writeTo` is one call, also where there is nothing to write;
closing a `ByteArrayOutputStream` does nothing. -/
def logAndCopy (stream : Sink σ ε) (baos : Nat) (originalStream : OutputStream) :
    EStateM ε (WriterState σ) Unit := do
  let w ← get
  logInfo (decodeUtf8String (w.content baos))
  write stream originalStream (w.content baos)
  setOutputStream originalStream

/-- `ResponseLoggingInterceptor.aroundWriteTo`. -/
def aroundWriteTo (stream : Sink σ ε) (proceed : EStateM ε (WriterState σ) Unit) :
    EStateM ε (WriterState σ) Unit := do
  let originalStream ← getOutputStream
  let baos ← newByteArrayOutputStream
  setOutputStream (.byteArray baos)
  try
    proceed
  finally
    logAndCopy stream baos originalStream

/-- `WriterInterceptorContext.proceed` with so many interceptors still to come. -/
def proceed (stream : Sink σ ε) (writer : BodyWriter ε) :
    Nat → EStateM ε (WriterState σ) Unit
  | 0 => do
      let out ← getOutputStream
      writer.writeTo stream out
  | n + 1 => aroundWriteTo stream (proceed stream writer n)

/-! ## Buffers -/

theorem content_append_self {w : WriterState σ} {k : Nat} (hk : k < w.byteArrays.length)
    (bs : List UInt8) : (w.append k bs).content k = w.content k ++ bs := by
  simp [WriterState.content, WriterState.append, hk]

theorem content_append_of_ne (w : WriterState σ) {j k : Nat} (h : j ≠ k) (bs : List UInt8) :
    (w.append k bs).content j = w.content j := by
  simp [WriterState.content, WriterState.append, h.symm]

/-- The state with a new buffer as the output stream. -/
def WriterState.withBuffer (w : WriterState σ) : WriterState σ :=
  { w with
    byteArrays := w.byteArrays ++ [[]]
    outputStream := .byteArray w.byteArrays.length }

theorem content_withBuffer_self (w : WriterState σ) :
    w.withBuffer.content w.byteArrays.length = [] := by
  simp [WriterState.content, WriterState.withBuffer]

theorem content_withBuffer_of_lt (w : WriterState σ) {j : Nat} (h : j < w.byteArrays.length) :
    w.withBuffer.content j = w.content j := by
  unfold WriterState.content WriterState.withBuffer
  rw [List.getD_eq_getElem?_getD, List.getD_eq_getElem?_getD, List.getElem?_append_left h]

/-- The code in front of the `try` block. -/
theorem run_aroundWriteTo (stream : Sink σ ε)
    (inner : EStateM ε (WriterState σ) Unit) (w : WriterState σ) :
    (aroundWriteTo stream inner).run w =
      (tryFinally inner (logAndCopy stream w.byteArrays.length w.outputStream)).run
        w.withBuffer :=
  rfl

/-- What writing to buffer `k` changes: that buffer, younger buffers and the log. -/
structure Buffered (w w' : WriterState σ) (k : Nat) (bs : List UInt8) (lines : List JString) :
    Prop where
  sink : w'.sink = w.sink
  delivered : w'.delivered = w.delivered
  outputStream : w'.outputStream = w.outputStream
  size : w.byteArrays.length ≤ w'.byteArrays.length
  content : w'.content k = w.content k ++ bs
  others : ∀ j, j < w.byteArrays.length → j ≠ k → w'.content j = w.content j
  log : w'.log = w.log ++ lines

theorem buffered_append {w : WriterState σ} {k : Nat} (hk : k < w.byteArrays.length)
    (bs : List UInt8) : Buffered w (w.append k bs) k bs [] where
  sink := rfl
  delivered := rfl
  outputStream := rfl
  size := by simp [WriterState.append]
  content := content_append_self hk bs
  others j _ hj := content_append_of_ne w hj bs
  log := (List.append_nil w.log).symm

/-- A new buffer that has been filled, logged and copied to buffer `k`. -/
theorem Buffered.copy {w w' : WriterState σ} {k : Nat} {bs : List UInt8}
    {lines : List JString} (hk : k < w.byteArrays.length)
    (hout : w.outputStream = .byteArray k)
    (h : Buffered w.withBuffer w' w.byteArrays.length bs lines) (line : JString) :
    Buffered w { ({ w' with log := w'.log ++ [line] }).append k bs with
      outputStream := .byteArray k } k bs (lines ++ [line]) where
  sink := h.sink
  delivered := h.delivered
  outputStream := hout.symm
  size := by
    have hsize := h.size
    simp only [WriterState.withBuffer, List.length_append, List.length_singleton] at hsize
    simp only [WriterState.append, List.length_modify]
    omega
  content := by
    have hsize := h.size
    simp only [WriterState.withBuffer, List.length_append, List.length_singleton] at hsize
    have hk' : k < ({ w' with log := w'.log ++ [line] }).byteArrays.length := by
      show k < w'.byteArrays.length
      omega
    have hkeep : w'.content k = w.content k := by
      rw [← content_withBuffer_of_lt w hk]
      exact h.others k (by simp [WriterState.withBuffer]; omega) (by omega)
    rw [← hkeep]
    exact content_append_self hk' bs
  others j hj hjk := by
    rw [← content_withBuffer_of_lt w hj]
    rw [← h.others j (by simp [WriterState.withBuffer]; omega) (by omega)]
    exact content_append_of_ne _ hjk bs
  log := by
    show w'.log ++ [line] = w.log ++ (lines ++ [line])
    rw [h.log, List.append_assoc]
    rfl

/-! ## Interceptors in front of a buffer -/

/-- Any number of interceptors in front of a buffer write to it what the writer alone
would write; each of them logs it. -/
theorem proceed_byteArray (stream : Sink σ ε) (writer : BodyWriter ε) (n : Nat)
    {w : WriterState σ} {k : Nat} (hk : k < w.byteArrays.length)
    (hout : w.outputStream = .byteArray k) :
    ∃ w', (proceed stream writer n).run w = ended writer.ending w' ∧
      Buffered w w' k writer.chunks.flatten
        (List.replicate n (decodeUtf8String writer.chunks.flatten)) := by
  induction n generalizing w k with
  | zero =>
      refine ⟨_, ?_, buffered_append hk _⟩
      have hget : (getOutputStream : EStateM ε (WriterState σ) OutputStream).run w =
          .ok (.byteArray k) w := by
        rw [← hout]
        rfl
      unfold proceed
      rw [run_bind_of_ok hget]
      exact run_writeTo_byteArray stream writer w k
  | succ n ih =>
      have hnew : w.byteArrays.length < w.withBuffer.byteArrays.length := by
        simp [WriterState.withBuffer]
      rcases ih hnew rfl with ⟨w', hinner, hbuffered⟩
      have hcontent : w'.content w.byteArrays.length = writer.chunks.flatten := by
        rw [hbuffered.content, content_withBuffer_self, List.nil_append]
      refine ⟨_, ?_, List.replicate_succ' ▸
        hbuffered.copy hk hout (decodeUtf8String writer.chunks.flatten)⟩
      unfold proceed
      rw [run_aroundWriteTo, hout]
      apply run_tryFinally_of_ok hinner
      rw [← hcontent]
      rfl

/-! ## Interceptors in front of the stream underneath -/

/-- The `finally` block after the log call. -/
theorem run_logAndCopy (stream : Sink σ ε) (w : WriterState σ) (baos : Nat)
    (out : OutputStream) :
    (logAndCopy stream baos out).run w =
      (write stream out (w.content baos) >>= fun _ => setOutputStream out).run
        { w with log := w.log ++ [decodeUtf8String (w.content baos)] } :=
  rfl

/-- The `finally` block of the outermost interceptor when the call returns. -/
theorem run_logAndCopy_of_ok (stream : Sink σ ε) {w : WriterState σ} {baos : Nat}
    (h : (stream.write w.sink (w.content baos)).ending = .ok ()) :
    (logAndCopy stream baos .underlying).run w =
      .ok () { ({ w with log := w.log ++ [decodeUtf8String (w.content baos)] }).receive
        (stream.write w.sink (w.content baos)) with outputStream := .underlying } := by
  have hwrite := run_write_underlying stream
    { w with log := w.log ++ [decodeUtf8String (w.content baos)] } (w.content baos)
  rw [h] at hwrite
  rw [run_logAndCopy]
  exact run_bind_of_ok hwrite

/-- The `finally` block of the outermost interceptor when the call throws: the stream of the
context stays the buffer. -/
theorem run_logAndCopy_of_error (stream : Sink σ ε) {w : WriterState σ} {baos : Nat} {e : ε}
    (h : (stream.write w.sink (w.content baos)).ending = .error e) :
    (logAndCopy stream baos .underlying).run w =
      .error e (({ w with log := w.log ++ [decodeUtf8String (w.content baos)] }).receive
        (stream.write w.sink (w.content baos))) := by
  have hwrite := run_write_underlying stream
    { w with log := w.log ++ [decodeUtf8String (w.content baos)] } (w.content baos)
  rw [h] at hwrite
  rw [run_logAndCopy]
  exact run_bind_of_error hwrite

/-- The stream underneath and the log after a chain of interceptors. -/
structure Delivered (w w' : WriterState σ) (delivery : Delivery σ ε) (lines : List JString) :
    Prop where
  sink : w'.sink = delivery.sink
  delivered : w'.delivered = w.delivered ++ delivery.bytes
  log : w'.log = w.log ++ lines

/-- A new buffer that has been filled, logged and copied to the stream underneath. -/
theorem Buffered.delivered_receive {w w' : WriterState σ} {k : Nat} {bs : List UInt8}
    {lines : List JString} (h : Buffered w.withBuffer w' k bs lines) (delivery : Delivery σ ε)
    (line : JString) :
    Delivered w (({ w' with log := w'.log ++ [line] }).receive delivery) delivery
      (lines ++ [line]) where
  sink := rfl
  delivered := by
    have hdelivered : w'.delivered = w.delivered := h.delivered
    simp only [WriterState.receive, hdelivered]
  log := by
    have hlog : w'.log = w.log ++ lines := h.log
    simp only [WriterState.receive, hlog, List.append_assoc]

/-- One or more interceptors in front of the stream underneath make one call of all that the
writer has written, and end as the writer does when it returns; they put the stream back into
the context exactly then. -/
theorem proceed_underlying (stream : Sink σ ε) (writer : BodyWriter ε) (n : Nat)
    {w : WriterState σ} (hout : w.outputStream = .underlying) :
    ∃ w', (proceed stream writer (n + 1)).run w =
        ended ((stream.write w.sink writer.chunks.flatten).ending >>= fun _ => writer.ending)
          w' ∧
      Delivered w w' (stream.write w.sink writer.chunks.flatten)
        (List.replicate (n + 1) (decodeUtf8String writer.chunks.flatten)) ∧
      (w'.outputStream = .underlying ↔
        (stream.write w.sink writer.chunks.flatten).ending = .ok ()) := by
  have hnew : w.byteArrays.length < w.withBuffer.byteArrays.length := by
    simp [WriterState.withBuffer]
  rcases proceed_byteArray stream writer n hnew rfl with ⟨w', hinner, hbuffered⟩
  have hcontent : w'.content w.byteArrays.length = writer.chunks.flatten := by
    rw [hbuffered.content, content_withBuffer_self, List.nil_append]
  have hsink : w'.sink = w.sink := hbuffered.sink
  have hdelivered := hbuffered.delivered_receive
    (stream.write w.sink writer.chunks.flatten) (decodeUtf8String writer.chunks.flatten)
  rw [← List.replicate_succ'] at hdelivered
  unfold proceed
  rw [run_aroundWriteTo, hout]
  cases hending : (stream.write w.sink writer.chunks.flatten).ending with
  | ok _ =>
      have hcopy : (stream.write w'.sink (w'.content w.byteArrays.length)).ending = .ok () := by
        rw [hcontent, hsink, hending]
      have hfinally := run_logAndCopy_of_ok stream hcopy
      rw [hcontent, hsink] at hfinally
      refine ⟨_, run_tryFinally_of_ok hinner hfinally, ?_, ?_⟩
      · exact ⟨hdelivered.sink, hdelivered.delivered, hdelivered.log⟩
      · simp
  | error e =>
      have hcopy : (stream.write w'.sink (w'.content w.byteArrays.length)).ending = .error e := by
        rw [hcontent, hsink, hending]
      have hfinally := run_logAndCopy_of_error stream hcopy
      rw [hcontent, hsink] at hfinally
      refine ⟨_, run_tryFinally_of_error hinner hfinally, hdelivered, ?_⟩
      have hbuffer : w'.outputStream = .byteArray w.byteArrays.length := hbuffered.outputStream
      simp [WriterState.receive, hbuffer]

/-- What the stream underneath sees of a writer behind so many interceptors: one call of all
that it writes. -/
def BodyWriter.behind (writer : BodyWriter ε) : Nat → BodyWriter ε
  | 0 => writer
  | _ + 1 => ⟨[writer.chunks.flatten], nothing, writer.ending⟩

theorem flatten_behind (writer : BodyWriter ε) (n : Nat) :
    (writer.behind n).chunks.flatten = writer.chunks.flatten := by
  cases n with
  | zero => rfl
  | succ n => exact List.append_nil _

/-- A chain of interceptors does to the stream underneath what the stream sees of the writer,
and each interceptor logs all that the writer writes. -/
theorem proceed_behind (stream : Sink σ ε) (writer : BodyWriter ε) (n : Nat)
    {w : WriterState σ} (hout : w.outputStream = .underlying) :
    ∃ w', (proceed stream writer n).run w =
        ended ((stream.writeEach (writer.behind n).caught w.sink
          (writer.behind n).chunks).ending >>= fun _ => writer.ending) w' ∧
      Delivered w w'
        (stream.writeEach (writer.behind n).caught w.sink (writer.behind n).chunks)
        (List.replicate n (decodeUtf8String writer.chunks.flatten)) := by
  cases n with
  | zero =>
      have hrun : (proceed stream writer 0).run w = (writer.writeTo stream .underlying).run w := by
        rw [← hout]
        rfl
      rw [hrun, run_writeTo_underlying]
      exact ⟨_, rfl, rfl, rfl, (List.append_nil w.log).symm⟩
  | succ n =>
      obtain ⟨w', hrun, hdelivered, _⟩ := proceed_underlying stream writer n hout
      unfold BodyWriter.behind
      rw [writeEach_singleton]
      exact ⟨w', hrun, hdelivered⟩

/-! ## Transparency -/

/-- A run of the chain against a run of the writer on the stream of the context. -/
structure Transparent (stream : Sink σ ε) (writer : BodyWriter ε) (n : Nat)
    (w : WriterState σ) : Prop where
  bytes : (finalState ((proceed stream writer n).run w)).delivered =
    (finalState ((writer.writeTo stream w.outputStream).run w)).delivered
  normally : EndedNormally ((proceed stream writer n).run w) ↔
    EndedNormally ((writer.writeTo stream w.outputStream).run w)
  restored : (finalState ((proceed stream writer n).run w)).outputStream = w.outputStream

/-- The stream underneath makes no difference between one call of all bytes, which returns,
and the writes of the writer: these let all bytes through, and unless the writer throws by
itself none of them throws what it does not catch. -/
structure Sink.Indifferent (stream : Sink σ ε) (writer : BodyWriter ε) (sink : σ) : Prop where
  call : (stream.write sink writer.chunks.flatten).ending = .ok ()
  bytes : stream.TakesAll writer.caught sink writer.chunks
  ending : writer.ending = .ok () → stream.Completes writer.caught sink writer.chunks

/-- A sequence of statements ends normally when each of them does. -/
theorem exists_bind_eq_ok_iff {first last : Except ε Unit} :
    (∃ a, (first >>= fun _ => last) = .ok a) ↔ first = .ok () ∧ last = .ok () := by
  cases first <;> cases last <;> simp [bind, Except.bind]

/-- Without an interceptor there is nothing to tell. -/
theorem transparent_zero (stream : Sink σ ε) (writer : BodyWriter ε) {w : WriterState σ}
    (hout : w.outputStream = .underlying) : Transparent stream writer 0 w := by
  have hproceed : (proceed stream writer 0).run w =
      (writer.writeTo stream w.outputStream).run w := rfl
  refine ⟨by rw [hproceed], by rw [hproceed], ?_⟩
  rw [hproceed, hout, run_writeTo_underlying, finalState_ended]
  exact hout

/-- Interceptors cannot be told from the writer alone when the stream underneath makes no
difference between one call and many, and not otherwise. -/
theorem transparent_succ_iff (stream : Sink σ ε) (writer : BodyWriter ε) (n : Nat)
    {w : WriterState σ} (hout : w.outputStream = .underlying) :
    Transparent stream writer (n + 1) w ↔ stream.Indifferent writer w.sink := by
  have hdirect := run_writeTo_underlying stream writer w
  rcases proceed_underlying stream writer n hout with ⟨w', hrun, hdelivered, hrestored⟩
  have hbytes := bytes_writeEach_eq_iff stream writer.caught w.sink writer.chunks
  have hending := ending_writeEach_iff stream writer.caught w.sink writer.chunks
  constructor
  · intro h
    have hback := h.restored
    rw [hrun, finalState_ended, hout, hrestored] at hback
    have hsame := h.bytes
    rw [hrun, hout, hdirect, finalState_ended, finalState_ended, hdelivered.delivered,
      stream.bytes_of_ok _ _ hback, WriterState.receive, List.append_cancel_left_eq,
      eq_comm, hbytes] at hsame
    refine ⟨hback, hsame, ?_⟩
    intro hwriter
    have hnormally := h.normally
    rw [hrun, hout, hdirect, endedNormally_ended, endedNormally_ended,
      exists_bind_eq_ok_iff, exists_bind_eq_ok_iff] at hnormally
    exact hending.mp (hnormally.mp ⟨hback, hwriter⟩).1
  · intro h
    refine ⟨?_, ?_, ?_⟩
    · rw [hrun, hout, hdirect, finalState_ended, finalState_ended, hdelivered.delivered,
        stream.bytes_of_ok _ _ h.call, WriterState.receive, hbytes.mpr h.bytes]
    · rw [hrun, hout, hdirect, endedNormally_ended, endedNormally_ended,
        exists_bind_eq_ok_iff, exists_bind_eq_ok_iff]
      constructor
      · rintro ⟨_, hwriter⟩
        exact ⟨hending.mpr (h.ending hwriter), hwriter⟩
      · rintro ⟨_, hwriter⟩
        exact ⟨h.call, hwriter⟩
    · rw [hrun, finalState_ended, hrestored.mpr h.call, hout]

/-- A stream that takes single bytes makes no difference to a writer that catches nothing when
it takes all bytes, and only then. -/
theorem indifferent_ofBytes_iff (accept : σ → UInt8 → Except ε σ) (chunks : List (List UInt8))
    (ending : Except ε Unit) (sink : σ) :
    (Sink.ofBytes accept).Indifferent ⟨chunks, nothing, ending⟩ sink ↔
      AcceptsAll accept sink chunks.flatten := by
  have hcompletes := completes_ofBytes_iff accept sink chunks
  have hcall := completes_ofBytes_iff accept sink [chunks.flatten]
  rw [completes_singleton_iff, List.flatten_singleton] at hcall
  constructor
  · intro h
    exact hcall.mp h.call
  · intro h
    exact ⟨hcall.mpr h, (hcompletes.mpr h).takesAll _, fun _ => hcompletes.mpr h⟩

/-- A chain of interceptors cannot be told from the writer alone exactly when it is empty or
the stream underneath makes no difference between one call and many. -/
theorem transparent_iff (stream : Sink σ ε) (writer : BodyWriter ε) (n : Nat)
    (w : WriterState σ) (hout : w.outputStream = .underlying) :
    Transparent stream writer n w ↔ n = 0 ∨ stream.Indifferent writer w.sink := by
  cases n with
  | zero => exact iff_of_true (transparent_zero stream writer hout) (Or.inl rfl)
  | succ n =>
      rw [transparent_succ_iff stream writer n hout]
      exact ⟨Or.inr, fun h => h.resolve_left (Nat.succ_ne_zero n)⟩

/-- A stream on which every call throws: the client has gone away. -/
def closedSink : Sink Unit Unit where
  write _ _ := ⟨(), [], .error ()⟩
  bytes_prefix _ _ := List.nil_prefix
  bytes_of_ok _ _ h := by contradiction

/-- A stream that takes so many bytes at a time and throws at longer calls. -/
def shortCalls (limit : Nat) : Sink Unit Unit where
  write _ bs := if bs.length ≤ limit then ⟨(), bs, .ok ()⟩ else ⟨(), [], .error ()⟩
  bytes_prefix _ bs := by
    split
    · exact List.prefix_rfl
    · exact List.nil_prefix
  bytes_of_ok _ bs h := by
    split at h
    next hle => rw [if_pos hle]
    next => contradiction

/-- Two interceptors in front of a stream that takes the two bytes in one call and in two; the
writer throws behind them. -/
theorem transparent_iff_two :
    Transparent (shortCalls 2) ⟨[[0x41], [0x42]], nothing, .error ()⟩ 2
      ⟨(), [], [], .underlying, []⟩ :=
  (transparent_iff (shortCalls 2) ⟨[[0x41], [0x42]], nothing, .error ()⟩ 2
    ⟨(), [], [], .underlying, []⟩ rfl).mpr
      (Or.inr ⟨rfl, ⟨rfl, rfl, trivial⟩, fun h => by contradiction⟩)

/-- One interceptor in front of a client that has gone away leaves its buffer in the context,
and throws also where there is nothing to write. -/
theorem not_transparent_closed :
    ¬ Transparent closedSink ⟨[[0x41]], nothing, .ok ()⟩ 1 ⟨(), [], [], .underlying, []⟩ ∧
      ¬ Transparent closedSink ⟨[], nothing, .ok ()⟩ 1 ⟨(), [], [], .underlying, []⟩ := by
  constructor
  · intro h
    have hrestored := h.restored
    contradiction
  · intro h
    exact h.normally.mpr trivial

end Mockbank
