import Mockbank.Interceptor.ResponseLogging

/-!
# Printed responses

The encryption resource prints its answer through a `PrintStream`, which takes note of an
`IOException` of the stream behind it and goes on, and throws every other exception.  This
file follows a printed text through the interceptors to a stream that may throw.

Main results:

- Theorem `printed_complete_iff`: when a printed answer is complete, and when its loss is
  noticed.
-/

namespace Mockbank

open Jvm

variable {σ ε : Type}

/-- `StreamingOutput.write` of the encryption resource: `PrintStream.println(String)` in the
chunks that the encoder behind it makes. -/
def printWriter (isIOException : ε → Bool) (chunks : List (List UInt8)) : BodyWriter ε where
  chunks := chunks
  caught := isIOException
  ending := .ok ()

/-- A writer that throws nothing by itself ends as its writes do. -/
theorem bind_ok (ending : Except ε Unit) : (ending >>= fun _ => .ok ()) = ending := by
  cases ending <;> rfl

/-- What has been delivered and how the exchange ends, by what the stream sees of the printer. -/
theorem proceed_printWriter (stream : Sink σ ε) (isIOException : ε → Bool)
    (chunks : List (List UInt8)) (n : Nat) {w : WriterState σ}
    (hout : w.outputStream = .underlying) :
    let seen := (printWriter isIOException chunks).behind n
    let run := (proceed stream (printWriter isIOException chunks) n).run w
    ((finalState run).delivered = w.delivered ++ chunks.flatten ↔
        stream.TakesAll seen.caught w.sink seen.chunks) ∧
      (EndedNormally run ↔ stream.Completes seen.caught w.sink seen.chunks) ∧
      (finalState run).log = w.log ++ List.replicate n (decodeUtf8String chunks.flatten) := by
  intro seen run
  obtain ⟨w', hrun, hdelivered⟩ :=
    proceed_behind stream (printWriter isIOException chunks) n hout
  have hflatten : seen.chunks.flatten = chunks.flatten := flatten_behind _ n
  have hrun' : run = ended (stream.writeEach seen.caught w.sink seen.chunks).ending w' :=
    hrun.trans (by rw [show (printWriter isIOException chunks).ending = .ok () from rfl, bind_ok])
  rw [hrun', finalState_ended, endedNormally_ended, hdelivered.delivered,
    List.append_cancel_left_eq, ← hflatten, bytes_writeEach_eq_iff, ← ending_writeEach_iff]
  refine ⟨Iff.rfl, ?_, by rw [hdelivered.log, hflatten]; rfl⟩
  cases (stream.writeEach seen.caught w.sink seen.chunks).ending <;> simp

/-- An answer is printed to any stream, in any chunks.  Without an interceptor it is complete
when every call that is made lets its bytes through, and the exchange ends normally when the
calls throw nothing but `IOException`s, so that a loss may go unnoticed.  Behind interceptors
there is one call; the exchange ends normally when it returns, and then the answer is complete.
Every interceptor has logged the whole answer in any case. -/
theorem printed_complete_iff (stream : Sink σ ε) (isIOException : ε → Bool)
    (chunks : List (List UInt8)) (n : Nat) (w : WriterState σ)
    (hout : w.outputStream = .underlying) :
    (n = 0 →
      ((finalState ((proceed stream (printWriter isIOException chunks) n).run w)).delivered =
          w.delivered ++ chunks.flatten ↔ stream.TakesAll isIOException w.sink chunks) ∧
        (EndedNormally ((proceed stream (printWriter isIOException chunks) n).run w) ↔
          stream.Completes isIOException w.sink chunks)) ∧
    (0 < n →
      ((finalState ((proceed stream (printWriter isIOException chunks) n).run w)).delivered =
          w.delivered ++ chunks.flatten ↔
            (stream.write w.sink chunks.flatten).bytes = chunks.flatten) ∧
        (EndedNormally ((proceed stream (printWriter isIOException chunks) n).run w) ↔
          (stream.write w.sink chunks.flatten).ending = .ok ()) ∧
        (EndedNormally ((proceed stream (printWriter isIOException chunks) n).run w) →
          (finalState ((proceed stream (printWriter isIOException chunks) n).run w)).delivered =
            w.delivered ++ chunks.flatten)) ∧
    (finalState ((proceed stream (printWriter isIOException chunks) n).run w)).log =
      w.log ++ List.replicate n (decodeUtf8String chunks.flatten) := by
  obtain ⟨hcomplete, hnormal, hlog⟩ := proceed_printWriter stream isIOException chunks n hout
  refine ⟨?_, ?_, hlog⟩
  · rintro rfl
    exact ⟨hcomplete, hnormal⟩
  · intro hn
    obtain ⟨m, rfl⟩ := Nat.exists_eq_succ_of_ne_zero (Nat.ne_of_gt hn)
    have hbytes : stream.TakesAll nothing w.sink [chunks.flatten] ↔ _ := takesAll_singleton_iff
    have hending : stream.Completes nothing w.sink [chunks.flatten] ↔ _ := completes_singleton_iff
    have hcomplete' := hcomplete.trans hbytes
    have hnormal' := hnormal.trans hending
    exact ⟨hcomplete', hnormal', fun h =>
      hcomplete'.mpr (stream.bytes_of_ok w.sink chunks.flatten (hnormal'.mp h))⟩

/-- A stream that takes so many bytes. -/
def acceptUpTo : Nat → UInt8 → Except Unit Nat
  | 0, _ => .error ()
  | k + 1, _ => .ok k

/-- Three bytes printed to a stream that accepts one: without an interceptor the loss of two
goes unnoticed, behind one it does not. -/
theorem printed_complete_iff_short :
    ((finalState ((proceed (.ofBytes acceptUpTo)
          (printWriter (fun _ => true) [[0x41, 0x42], [0x0A]]) 0).run
        ⟨1, [], [], .underlying, []⟩)).delivered ≠ [] ++ [[0x41, 0x42], [0x0A]].flatten ∧
      EndedNormally ((proceed (.ofBytes acceptUpTo)
          (printWriter (fun _ => true) [[0x41, 0x42], [0x0A]]) 0).run
        ⟨1, [], [], .underlying, []⟩)) ∧
    ¬ EndedNormally ((proceed (.ofBytes acceptUpTo)
          (printWriter (fun _ => true) [[0x41, 0x42], [0x0A]]) 1).run
        ⟨1, [], [], .underlying, []⟩) := by
  obtain ⟨hplain, _, _⟩ := printed_complete_iff (.ofBytes acceptUpTo) (fun _ => true)
    [[0x41, 0x42], [0x0A]] 0 ⟨1, [], [], .underlying, []⟩ rfl
  obtain ⟨_, hbehind, _⟩ := printed_complete_iff (.ofBytes acceptUpTo) (fun _ => true)
    [[0x41, 0x42], [0x0A]] 1 ⟨1, [], [], .underlying, []⟩ rfl
  refine ⟨⟨?_, (hplain rfl).2.mpr ⟨rfl, rfl, trivial⟩⟩, ?_⟩
  · intro h
    exact absurd ((hplain rfl).1.mp h).1 (by decide)
  · intro h
    exact absurd ((hbehind Nat.one_pos).2.1.mp h) (by simp [Sink.ofBytes, deliver, acceptUpTo])

end Mockbank
