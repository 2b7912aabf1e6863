import Mockbank.Jvm.Charset
import Mockbank.Jvm.InputStream
import Mockbank.Jvm.Statement

/-!
# `RequestLoggingInterceptor`

The interceptor reads the stream of the context to its end through an array of 1024
bytes, logs what it has read, and puts a stream over a copy of it into the context before
the rest of the chain reads.

Main results:

- Theorem `copy_baos`: the loop copies what remains of the stream, and nothing else.
- Theorem `run_aroundReadFrom`: one interceptor.
- Theorem `run_proceed`: whatever reads behind any number of interceptors gets a stream
  that delivers the body.
-/

namespace Mockbank
namespace RequestLogging

open Jvm

variable {σ ε α : Type}

/-! ## The state while a request is read -/

/-- The stream of the context, the lines of the log and how often the interceptors have
called `read`. -/
structure ReaderState (σ : Type) where
  inputStream : σ ⊕ ByteArrayInputStream
  log : List JString
  reads : Nat

/-- The streams that a context may hold: the one that came with the request, and those
that interceptors have put in its place. -/
def streams (incoming : InputStream σ) : InputStream (σ ⊕ ByteArrayInputStream) :=
  incoming.sum ByteArrayInputStream.stream

/-- What is left of the message body in the stream of the context. -/
def ReaderState.body (incoming : InputStream σ) (w : ReaderState σ) : List UInt8 :=
  (streams incoming).remaining w.inputStream

/-! ## The code -/

def getInputStream : EStateM ε (ReaderState σ) (σ ⊕ ByteArrayInputStream) := do
  return (← get).inputStream

def setInputStream (is : σ ⊕ ByteArrayInputStream) : EStateM ε (ReaderState σ) Unit :=
  modify fun w => { w with inputStream := is }

def logInfo (line : JString) : EStateM ε (ReaderState σ) Unit :=
  modify fun w => { w with log := w.log ++ [line] }

/-- The variables of the loop, the stream it reads and how often it has read. -/
structure Copy (σ : Type) where
  input : σ
  buffer : ByteBuffer
  baos : List UInt8
  reads : Nat

/-- The variables in front of the loop: an empty `baos` and `new byte[1024]`. -/
def Copy.start (input : σ) : Copy σ where
  input := input
  buffer := .zeros 1024 (by decide)
  baos := []
  reads := 0

/-- `while ((len = input.read(buffer)) > -1) baos.write(buffer, 0, len)`. -/
def copy (input : InputStream σ) (c : Copy σ) : Copy σ :=
  let result := input.read c.input c.buffer
  if -1 < result.len then
    copy input
      { input := result.stream
        buffer := result.buffer
        baos := c.baos ++ result.buffer.bytes.take result.len.toNat
        reads := c.reads + 1 }
  else
    { c with
      input := result.stream
      buffer := result.buffer
      reads := c.reads + 1 }
termination_by (input.remaining c.input).length
decreasing_by
  exact input.length_remaining_lt ‹_›

/-- The loop reads the stream that the context still holds. -/
def copyInputStream (incoming : InputStream σ) (input : σ ⊕ ByteArrayInputStream) :
    EStateM ε (ReaderState σ) (List UInt8) :=
  modifyGet fun w =>
    let copied := copy (streams incoming) (.start input)
    (copied.baos, { w with inputStream := copied.input, reads := w.reads + copied.reads })

/-- `IOUtils.toString(InputStream, Charset)` reads the stream to its end. -/
def ioUtilsToString (is : ByteArrayInputStream) : JString × ByteArrayInputStream :=
  (decodeUtf8String is.remaining, { is with pos := is.buf.length })

/-- `RequestLoggingInterceptor.aroundReadFrom`. -/
def aroundReadFrom (incoming : InputStream σ) (proceed : EStateM ε (ReaderState σ) α) :
    EStateM ε (ReaderState σ) α := do
  let input ← getInputStream
  let baos ← copyInputStream incoming input
  let is1 := ByteArrayInputStream.new baos
  let (text, is1) := ioUtilsToString is1
  logInfo text
  let is1 := is1.reset
  setInputStream (.inr is1)
  proceed

/-- `ReaderInterceptorContext.proceed` with so many interceptors still to come.  Behind
the last of them the message body reader reads the stream of the context. -/
def proceed (incoming : InputStream σ)
    (readFrom : σ ⊕ ByteArrayInputStream → EStateM ε (ReaderState σ) α) :
    Nat → EStateM ε (ReaderState σ) α
  | 0 => do
      let is ← getInputStream
      readFrom is
  | n + 1 => aroundReadFrom incoming (proceed incoming readFrom n)

/-! ## The loop -/

/-- The loop puts what remains of the stream behind what it has already copied, whatever
the array held. -/
theorem copy_baos (input : InputStream σ) (c : Copy σ) :
    (copy input c).baos = c.baos ++ input.remaining c.input := by
  fun_induction copy input c with
  | case1 c result hlen ih =>
      have hsplit := input.delivered_append_remaining c.input c.buffer
      rw [ih, List.append_assoc]
      exact congrArg (c.baos ++ ·) hsplit
  | case2 c result hlen =>
      have hend : input.remaining c.input = [] := by
        by_contra hne
        exact hlen ((input.neg_one_lt_len_iff c.input c.buffer).mpr hne)
      rw [hend, List.append_nil]

/-- A body that arrives in two parts. -/
example : (copy scheduled (.start ⟨[0x41, 0x42, 0x43], [2, 1]⟩)).baos =
    [0x41, 0x42, 0x43] :=
  copy_baos scheduled _

/-- The loop calls `read` at most once more than there are bytes. -/
theorem copy_reads_le (input : InputStream σ) (c : Copy σ) :
    (copy input c).reads ≤ c.reads + (input.remaining c.input).length + 1 := by
  fun_induction copy input c with
  | case1 c result hlen ih =>
      have hlt : (input.remaining result.stream).length < (input.remaining c.input).length :=
        input.length_remaining_lt hlen
      simp only at ih
      omega
  | case2 c result hlen => simp

/-! ## One interceptor -/

/-- The context behind one interceptor. -/
def ReaderState.replaced (incoming : InputStream σ) (w : ReaderState σ) : ReaderState σ where
  inputStream := .inr (ByteArrayInputStream.new (w.body incoming))
  log := w.log ++ [decodeUtf8String (w.body incoming)]
  reads := w.reads + (copy (streams incoming) (.start w.inputStream)).reads

theorem body_replaced (incoming : InputStream σ) (w : ReaderState σ) :
    (w.replaced incoming).body incoming = w.body incoming :=
  rfl

theorem reads_replaced_le (incoming : InputStream σ) (w : ReaderState σ) :
    (w.replaced incoming).reads ≤ w.reads + ((w.body incoming).length + 1) := by
  have hcopy : (copy (streams incoming) (.start w.inputStream)).reads ≤
      0 + (w.body incoming).length + 1 := copy_reads_le (streams incoming) _
  unfold ReaderState.replaced
  simp only
  omega

/-- The rest of the chain runs with a new stream over the whole body, although the body
has been read twice. -/
theorem run_aroundReadFrom (incoming : InputStream σ)
    (inner : EStateM ε (ReaderState σ) α) (w : ReaderState σ) :
    (aroundReadFrom incoming inner).run w = inner.run (w.replaced incoming) := by
  have hbaos : (copy (streams incoming) (.start w.inputStream)).baos =
      w.body incoming := copy_baos (streams incoming) _
  have hcopy : (copyInputStream incoming w.inputStream : EStateM ε (ReaderState σ) _).run w =
      .ok (w.body incoming)
        { w with
          inputStream := (copy (streams incoming) (.start w.inputStream)).input
          reads := (w.replaced incoming).reads } := by
    rw [← hbaos]
    rfl
  have hget : (getInputStream : EStateM ε (ReaderState σ) _).run w = .ok w.inputStream w := rfl
  unfold aroundReadFrom
  rw [run_bind_of_ok hget, run_bind_of_ok hcopy]
  rfl

/-! ## A chain of interceptors -/

/-- What any number of interceptors hand to the message body reader. -/
structure Handed (incoming : InputStream σ) (n : Nat) (w w' : ReaderState σ) : Prop where
  /-- The reader sees the bytes of the body and then the end, as it would have without
  interceptors. -/
  delivers : (streams incoming).Delivers w'.inputStream (w.body incoming)
  /-- Without interceptors it is the stream that was there, behind one a stream over the
  body of which nothing has been read. -/
  inputStream : w'.inputStream =
    if n = 0 then w.inputStream else .inr (ByteArrayInputStream.new (w.body incoming))
  /-- Each interceptor has logged the body. -/
  log : w'.log = w.log ++ List.replicate n (decodeUtf8String (w.body incoming))
  /-- Each loop has ended after one read for each byte and one for the end, at the latest. -/
  reads : w'.reads ≤ w.reads + n * ((w.body incoming).length + 1)

theorem handed_zero (incoming : InputStream σ) (w : ReaderState σ) : Handed incoming 0 w w where
  delivers := (streams incoming).delivers_remaining w.inputStream
  inputStream := rfl
  log := (List.append_nil w.log).symm
  reads := Nat.le_add_right _ _

/-- One more interceptor in front of the others. -/
theorem Handed.succ {incoming : InputStream σ} {n : Nat} {w w' : ReaderState σ}
    (h : Handed incoming n (w.replaced incoming) w') : Handed incoming (n + 1) w w' where
  delivers := h.delivers
  inputStream := by
    have hstream := h.inputStream
    by_cases hn : n = 0
    · rw [if_pos hn] at hstream
      exact hstream
    · rw [if_neg hn] at hstream
      exact hstream
  log := by
    have hlog : w'.log = (w.log ++ [decodeUtf8String (w.body incoming)]) ++
        List.replicate n (decodeUtf8String (w.body incoming)) := h.log
    rw [hlog, List.append_assoc, List.replicate_succ]
    rfl
  reads := by
    have hfirst := reads_replaced_le incoming w
    have hrest := h.reads
    rw [body_replaced] at hrest
    rw [Nat.succ_mul]
    omega

/-- Whatever reads behind any number of interceptors, and however the body arrives, the
reader runs on a stream that delivers the body from its first byte. -/
theorem run_proceed (incoming : InputStream σ)
    (readFrom : σ ⊕ ByteArrayInputStream → EStateM ε (ReaderState σ) α) (n : Nat)
    (w : ReaderState σ) :
    ∃ w', (proceed incoming readFrom n).run w = (readFrom w'.inputStream).run w' ∧
      Handed incoming n w w' := by
  induction n generalizing w with
  | zero => exact ⟨w, rfl, handed_zero incoming w⟩
  | succ n ih =>
      rcases ih (w.replaced incoming) with ⟨w', hrun, hhanded⟩
      refine ⟨w', ?_, hhanded.succ⟩
      unfold proceed
      rw [run_aroundReadFrom, hrun]

end RequestLogging
end Mockbank
