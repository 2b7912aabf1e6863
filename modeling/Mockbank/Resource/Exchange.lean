import Mockbank.Interceptor.Connection
import Mockbank.Resource.XmlEncryption

/-!
# An exchange with the encryption resource

From the stream that a request arrives on to the stream that the answer goes to: the request
interceptors, `IOUtils.toString`, the operation of the `Cryptor`, `PrintStream.println` and
the response interceptors.

Main results:

- Theorem `exchange_of_ok`: what an exchange delivers and logs.
- Theorem `http_round_trip`: two exchanges return the body, through any interceptors.
-/

namespace Mockbank

open Jvm

variable {σ τ ε : Type}

/-! ## The code -/

/-- The chunks in which the encoder behind a `PrintStream` passes bytes on. -/
structure Chunking where
  chunks : List UInt8 → List (List UInt8)
  flatten_chunks : ∀ bs, (chunks bs).flatten = bs

/-- How many interceptors a request and its answer pass. -/
structure Interceptors where
  request : Nat
  response : Nat

/-- How the container ends an exchange. -/
inductive ExchangeEnding (ε : Type) where
  | normally
  | refused (e : JavaException)
  | broken (e : ε)

/-- What an exchange leaves behind. -/
structure Exchange (ε : Type) where
  requestLog : List JString
  responseLog : List JString
  delivered : List UInt8
  ending : ExchangeEnding ε

/-- An operation of the resource behind its interceptors.  The message body reader of an
`InputStream` parameter hands on the stream of the context. -/
def exchange (arrival : Arrival σ) (connection : Connection τ ε) (isIOException : ε → Bool)
    (interceptors : Interceptors) (chunking : Chunking) (pl : Platform)
    (operation : JString → Except JavaException JString) : Exchange ε :=
  match (RequestLogging.proceed arrival.stream pure interceptors.request).run
      arrival.reader with
  | .error e reader => ⟨reader.log, [], [], .refused e⟩
  | .ok inputStream reader =>
      match operation
        (decodeUtf8String ((RequestLogging.streams arrival.stream).remaining inputStream)) with
      | .error e => ⟨reader.log, [], [], .refused e⟩
      | .ok answer =>
          match (proceed connection.stream
              (printWriter isIOException (chunking.chunks (pl.println answer)))
              interceptors.response).run connection.writer with
          | .ok _ writer => ⟨reader.log, writer.log, writer.delivered, .normally⟩
          | .error e writer => ⟨reader.log, writer.log, writer.delivered, .broken e⟩

/-! ## An answer -/

/-- An operation that answers, on an open connection: the answer is printed whole, and the
interceptors have logged the request and the answer in clear. -/
theorem exchange_of_ok (arrival : Arrival σ) {connection : Connection τ ε}
    (hopen : connection.Open) (isIOException : ε → Bool) (interceptors : Interceptors)
    (chunking : Chunking) (pl : Platform) {operation : JString → Except JavaException JString}
    {answer : JString} (hanswer : operation (decodeUtf8String arrival.body) = .ok answer) :
    exchange arrival connection isIOException interceptors chunking pl operation =
      ⟨List.replicate interceptors.request (decodeUtf8String arrival.body),
        List.replicate interceptors.response (decodeUtf8String (pl.println answer)),
        pl.println answer, .normally⟩ := by
  have hbody : (RequestLogging.streams arrival.stream).remaining
      (behind arrival.stream interceptors.request arrival.reader).inputStream = arrival.body :=
    body_behind arrival.stream interceptors.request arrival.reader
  have hlog : (behind arrival.stream interceptors.request arrival.reader).log =
      List.replicate interceptors.request (decodeUtf8String arrival.body) :=
    log_behind arrival.stream interceptors.request arrival.reader
  obtain ⟨writer, hwriter, hdelivered, hlines⟩ := run_proceed_of_open hopen
    (printWriter isIOException (chunking.chunks (pl.println answer))) interceptors.response
  have hflatten : (printWriter isIOException
      (chunking.chunks (pl.println answer))).chunks.flatten = pl.println answer :=
    chunking.flatten_chunks _
  rw [hflatten] at hdelivered hlines
  replace hwriter : (proceed connection.stream
      (printWriter isIOException (chunking.chunks (pl.println answer)))
      interceptors.response).run connection.writer = .ok () writer := hwriter
  have hread : (RequestLogging.proceed arrival.stream pure interceptors.request :
      EStateM JavaException (RequestLogging.ReaderState σ) _).run arrival.reader =
        .ok (behind arrival.stream interceptors.request arrival.reader).inputStream
          (behind arrival.stream interceptors.request arrival.reader) :=
    run_proceed_behind arrival.stream pure interceptors.request arrival.reader
  unfold exchange
  simp only [hread, hbody, hanswer, hwriter, hdelivered, hlines, hlog]

/-! ## Two exchanges -/

variable {P : Provider} {σ' τ' ε' : Type}

/-- A printed document is decrypted when it arrives. -/
theorem decrypt_printed (pl : Platform) {c : Cryptor P} (haes : P.AesInverts)
    (hrsa : c.keyPair.RsaInverts) (draw : Draw P) (plainText : JString) :
    ∃ cipherText, c.encrypt pl.charset.toCharset draw plainText = .ok cipherText ∧
      c.decrypt pl.charset.toCharset (decodeUtf8String (pl.println cipherText)) =
        .ok (pl.charset.decode (pl.charset.encode plainText)) := by
  obtain ⟨wrapped, hunwrap, hencrypt, _⟩ :=
    encrypt_spec pl.charset.toCharset haes hrsa draw plainText
  refine ⟨_, hencrypt, ?_⟩
  rw [decodeUtf8String_println pl (isAscii_envelope (Base64.isAscii_encode _)
    (Base64.isAscii_encode _)), decrypt_of_match (matchEnvelope_println _ _ _ _)]
  exact decryptKeyAndData_written haes hunwrap

/-- A text is sent to be encrypted, and what is delivered is sent back to be decrypted, over
connections that accept whatever is written to them.  However the two bodies arrive, whatever
interceptors they pass and in whatever chunks they are written, both exchanges end normally,
and the text comes back exactly when the default charset writes it as UTF-8 does.  The
interceptors of the first request and those of the second answer log it in clear. -/
theorem http_round_trip (haes : P.AesInverts) (c : Cryptor P) (hrsa : c.keyPair.RsaInverts)
    (pl : Platform) (draw : Draw P) (text : List Char)
    (there : Arrival σ) (hthere : there.body = text.flatMap String.utf8EncodeChar)
    (client : Connection τ ε) (hclient : client.Open) (isIOException : ε → Bool)
    (interceptors interceptors' : Interceptors) (chunking chunking' : Chunking)
    (back : Arrival σ')
    (hback : back.body = (exchange there client isIOException interceptors chunking pl
      (c.encrypt pl.charset.toCharset draw)).delivered)
    (client' : Connection τ' ε') (hclient' : client'.Open) (isIOException' : ε' → Bool) :
    ∃ sent returned,
      exchange there client isIOException interceptors chunking pl
          (c.encrypt pl.charset.toCharset draw) =
        ⟨List.replicate interceptors.request (ofChars text),
          List.replicate interceptors.response (decodeUtf8String sent), sent, .normally⟩ ∧
      exchange back client' isIOException' interceptors' chunking' pl
          (c.decrypt pl.charset.toCharset) =
        ⟨List.replicate interceptors'.request (decodeUtf8String sent),
          List.replicate interceptors'.response (decodeUtf8String returned), returned,
          .normally⟩ ∧
      (Returned pl (text.flatMap String.utf8EncodeChar) returned ↔ pl.charset.AgreesOn text) := by
  have htext : decodeUtf8String there.body = ofChars text := by
    rw [hthere, decodeUtf8String, decodeUtf8_flatMap]
  obtain ⟨cipherText, hencrypt, hdecrypt⟩ := decrypt_printed pl haes hrsa draw (ofChars text)
  rw [← htext] at hencrypt
  have hsent := exchange_of_ok there hclient isIOException interceptors chunking pl hencrypt
  replace hback : back.body = pl.println cipherText := by rw [hback, hsent]
  rw [← hback] at hdecrypt
  have hreturned :=
    exchange_of_ok back hclient' isIOException' interceptors' chunking' pl hdecrypt
  rw [htext] at hsent
  rw [hback] at hreturned
  exact ⟨_, _, hsent, hreturned, returned_iff_agreesOn pl text⟩

/-! ## A letter there and back -/

/-- Everything in one chunk. -/
def whole : Chunking := ⟨fun bs => [bs], fun bs => List.append_nil bs⟩

/-- The two bytes of the letter arrive one by one, and its document through one interceptor
in pieces of seven. -/
theorem http_round_trip_letter :
    ∃ sent returned,
      exchange ⟨scheduled, ⟨[0xC3, 0xA9], [1, 1]⟩⟩ openConnection (fun _ => true) ⟨1, 1⟩ whole
          ⟨utf8, .lf⟩ ((⟨transparentPair 7⟩ : Cryptor transparent).encrypt utf8.toCharset
            transparentDraw) =
        ⟨[ofChars [Char.ofNat 0xE9]], [decodeUtf8String sent], sent, .normally⟩ ∧
      exchange ⟨scheduled, ⟨sent, List.replicate 100 7⟩⟩ openConnection (fun _ => true) ⟨1, 0⟩
          whole ⟨utf8, .lf⟩ ((⟨transparentPair 7⟩ : Cryptor transparent).decrypt utf8.toCharset) =
        ⟨[decodeUtf8String sent], [], returned, .normally⟩ ∧
      (Returned ⟨utf8, .lf⟩ [0xC3, 0xA9] returned ↔ utf8.AgreesOn [Char.ofNat 0xE9]) := by
  obtain ⟨sent, returned, hsent, hreturned, hsame⟩ := http_round_trip transparent_aesInverts
    ⟨transparentPair 7⟩ (transparent_rsaInverts 7) ⟨utf8, .lf⟩ transparentDraw
    [Char.ofNat 0xE9] ⟨scheduled, ⟨[0xC3, 0xA9], [1, 1]⟩⟩ (by decide) openConnection
    openConnection_open (fun _ => true) ⟨1, 1⟩ ⟨1, 0⟩ whole whole
    ⟨scheduled, ⟨(exchange ⟨scheduled, ⟨[0xC3, 0xA9], [1, 1]⟩⟩ openConnection (fun _ => true)
      ⟨1, 1⟩ whole ⟨utf8, .lf⟩ ((⟨transparentPair 7⟩ : Cryptor transparent).encrypt utf8.toCharset
        transparentDraw)).delivered, List.replicate 100 7⟩⟩ (body_scheduled _ _) openConnection
    openConnection_open (fun _ => true)
  rw [hsent] at hreturned
  exact ⟨sent, returned, hsent, hreturned, hsame⟩

end Mockbank
