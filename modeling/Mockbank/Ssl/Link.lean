import Mockbank.Crypto.KeyFile

/-!
# `SSLSimpleClient` and `SSLSimpleServer`

The client sends one line and waits for one; the server starts a thread for each connection,
which waits for a line, prints it and sends one back.  What is sent arrives in order, in
whatever pieces.  This file has one connection: the client, the thread that handles it and
the bytes between them, when the handshake fails for no other reason than the death of the
client.  The lines that both parties print about their TLS session are left out.

Main results:

- Theorem `eq_of_readLine`: what a reader of a whole line gets.
- Theorem `prefix_of_readLine`: what a reader can get when the other side dies.
- Theorem `Link.Consistent.act`: what every action on a connection preserves.
- Theorem `Link.Consistent.progress`: a connection whose client lives is done or can go on.
- Theorem `todo_act_lt`: every action uses up some of what there is to do.
-/

namespace Mockbank
namespace Ssl

open Jvm

/-! ## Bytes between two sockets -/

/-- How a direction of a connection has ended: not yet, as a reader takes it with a
`close_notify`, or with an exception for the reader. -/
inductive PipeEnding where
  | stillOpen
  | closed
  | broken
deriving DecidableEq

/-- One direction of a connection.  A reader keeps what has arrived. -/
structure Pipe where
  arrived : List UInt8
  inFlight : List UInt8
  ending : PipeEnding
deriving DecidableEq

/-- Nothing has been sent. -/
def Pipe.empty : Pipe := ⟨[], [], .stillOpen⟩

/-- Everything that was sent and has not been lost. -/
def Pipe.sent (p : Pipe) : List UInt8 :=
  p.arrived ++ p.inFlight

/-- Bytes are sent behind those that are on their way. -/
def Pipe.send (p : Pipe) (bs : List UInt8) : Pipe :=
  { p with inFlight := p.inFlight ++ bs }

/-- At least one byte arrives. -/
def Pipe.deliver (p : Pipe) (n : Nat) : Option Pipe :=
  if p.inFlight = [] then none
  else some
    { p with
      arrived := p.arrived ++ p.inFlight.take (n + 1)
      inFlight := p.inFlight.drop (n + 1) }

/-- What `BufferedReader.readLine` does with what has arrived. -/
inductive Reading where
  | line (data : Option JString)
  | blocks
  | throws

/-- `BufferedReader.readLine` on the first line of a connection. -/
def Pipe.readLine (cs : AsciiCharset) (p : Pipe) : Reading :=
  let text := cs.decode p.arrived
  if text.any isTerminator then .line ((Mockbank.readLine text).map Prod.fst)
  else if p.inFlight = [] then
    match p.ending with
    | .stillOpen => .blocks
    | .closed => .line ((Mockbank.readLine text).map Prod.fst)
    | .broken => .throws
  else .blocks

/-- `String.valueOf`. -/
def valueOf (data : Option JString) : JString :=
  data.getD (lit "null")

/-! ## The two parties -/

/-- `"Who is Nash?"`. -/
def question : JString := lit "Who is Nash?"

/-- `"he is my son."`. -/
def answer : JString := lit "he is my son."

/-- `"received: " + data`. -/
def received (data : Option JString) : JString :=
  lit "received: " ++ valueOf data

/-- Where `SSLSimpleClient.main` stands: not connected, connected, with a session, with the
question in its `PrintWriter`, in `readLine`, behind `System.out.println` and behind `close`.
Its process may have died. -/
inductive Client where
  | new
  | connected
  | ready
  | asking
  | waiting
  | printed (text : JString)
  | done (text : JString)
  | failed
  | killed
deriving DecidableEq

/-- Where `SSLSimpleServer.run` stands: not started, started, in `readLine`, behind
`System.out.println`, with the answer in its `PrintWriter`, behind `pw.close()`, behind
`sslSocket.close()`, or in the `catch` block. -/
inductive Handler where
  | backlog
  | accepted
  | reading
  | received
  | answering
  | answered
  | closed
  | failed
deriving DecidableEq

/-- A client, the thread that handles its connection, and the two directions. -/
structure Link where
  client : Client
  handler : Handler
  toServer : Pipe
  toClient : Pipe

/-- A client that has not connected yet. -/
def Link.new : Link := ⟨.new, .backlog, .empty, .empty⟩

/-- What can happen to a connection: a step of the client, `accept` in the main thread of the
server, a step of the handler, the arrival of some bytes, or the death of the client with
all but some of its bytes lost.  Behind the handshake an `SSLSocket` takes the bare end of a
stream for a `close_notify`, and only a reset makes its reader throw. -/
inductive Action where
  | client
  | accept
  | handler
  | arriveAtServer (n : Nat)
  | arriveAtClient (n : Nat)
  | kill (kept : Nat) (reset : Bool)

/-- The death of the client. -/
def Action.isKill : Action → Bool
  | .kill _ _ => true
  | _ => false

/-- The next step of the client.  The handshake behind `getSession` needs the handler. -/
def Link.clientStep (pl : Platform) (l : Link) : Option Link :=
  match l.client with
  | .new => some { l with client := .connected }
  | .connected => if l.handler = .backlog then none else some { l with client := .ready }
  | .ready => some { l with client := .asking }
  | .asking => some { l with client := .waiting, toServer := l.toServer.send (pl.println question) }
  | .waiting =>
      match l.toClient.readLine pl.charset with
      | .line data => some { l with client := .printed (valueOf data) }
      | .blocks => none
      | .throws =>
          some { l with client := .failed, toServer := { l.toServer with ending := .broken } }
  | .printed text =>
      some { l with client := .done text, toServer := { l.toServer with ending := .closed } }
  | .done _ => none
  | .failed => none
  | .killed => none

/-- The next step of the handler, and what it prints. -/
def Link.handlerStep (pl : Platform) (l : Link) : Option (Link × List JString) :=
  match l.handler with
  | .backlog => none
  | .accepted => some ({ l with handler := .reading }, [])
  | .reading =>
      match l.toServer.readLine pl.charset with
      | .line data => some ({ l with handler := .received }, [received data])
      | .blocks => none
      | .throws => some ({ l with handler := .failed }, [])
  | .received => some ({ l with handler := .answering }, [])
  | .answering =>
      some ({ l with
        handler := .answered
        toClient := { l.toClient.send (pl.println answer) with ending := .closed } }, [])
  | .answered => some ({ l with handler := .closed }, [])
  | .closed => none
  | .failed => none

/-- The process of the client is there. -/
def Client.Running : Client → Prop
  | .new => False
  | .done _ => False
  | .failed => False
  | .killed => False
  | _ => True

instance (c : Client) : Decidable c.Running := by
  cases c <;> unfold Client.Running <;> infer_instance

/-- An action on a connection, and what the server prints; `none` when it cannot be taken. -/
def Link.act (pl spl : Platform) (l : Link) : Action → Option (Link × List JString)
  | .client => (l.clientStep pl).map fun l => (l, [])
  | .accept =>
      if l.handler = .backlog ∧ l.client ≠ .new then some ({ l with handler := .accepted }, [])
      else none
  | .handler => l.handlerStep spl
  | .arriveAtServer n => (l.toServer.deliver n).map fun p => ({ l with toServer := p }, [])
  | .arriveAtClient n => (l.toClient.deliver n).map fun p => ({ l with toClient := p }, [])
  | .kill kept reset =>
      if l.client.Running then
        some ({ l with
          client := .killed
          toServer := ⟨l.toServer.arrived, l.toServer.inFlight.take kept,
            if reset || l.client = .connected then .broken else .closed⟩ }, [])
      else none

/-- The line that a handler prints when it has received the question. -/
theorem received_question : received (some question) = lit "received: Who is Nash?" := by
  have hsplit : lit "received: Who is Nash?" = lit "received: " ++ lit "Who is Nash?" :=
    lit_split (by rfl)
  exact hsplit.symm

/-! ## Reading one line -/

/-- What has arrived of a printed line is read as the beginning of the line. -/
theorem exists_text {pl : Platform} {m : JString} (hm : IsAscii m) {arrived : List UInt8}
    (h : arrived <+: pl.println m) (cs : AsciiCharset) :
    ∃ t, t <+: m ++ pl.lineSeparator.text ∧ cs.decode arrived = t ∧
      (arrived = pl.println m → t = m ++ pl.lineSeparator.text) := by
  have hascii : IsAscii (m ++ pl.lineSeparator.text) := hm.append pl.lineSeparator.isAscii_text
  have hbytes : pl.println m = asciiBytes (m ++ pl.lineSeparator.text) :=
    pl.charset.encode_ascii hascii
  rw [hbytes] at h ⊢
  obtain ⟨t, ht, rfl⟩ := List.prefix_map_iff.mp h
  have htext : IsAscii t := fun u hu => hascii u (ht.subset hu)
  refine ⟨t, ht, cs.decode_asciiBytes htext, ?_⟩
  intro heq
  exact ht.eq_of_length (by simpa [asciiBytes] using congrArg List.length heq)

/-- A line separator holds nothing but terminators. -/
theorem isTerminator_of_mem_lineSeparator {sep : LineSeparator} {u : JChar}
    (hu : u ∈ sep.text) : isTerminator u = true := by
  have hall : sep.text.all isTerminator = true := by
    cases sep <;> decide
  exact List.all_eq_true.mp hall u hu

/-- A beginning of a line that holds a terminator is read as the line. -/
theorem readLine_of_prefix {m t : JString} {sep : LineSeparator}
    (hline : ∀ u ∈ m, inLine u = true) (ht : t <+: m ++ sep.text)
    (hterminator : t.any isTerminator = true) :
    (Mockbank.readLine t).map Prod.fst = some m := by
  obtain ⟨u, hu, hterm⟩ := List.any_eq_true.mp hterminator
  rcases List.prefix_or_prefix_of_prefix ht (List.prefix_append m sep.text) with hshort | hlong
  · have hin := hline u (hshort.subset hu)
    rw [inLine, hterm] at hin
    contradiction
  · obtain ⟨r, rfl⟩ := hlong
    have hr : r <+: sep.text := (List.prefix_append_right_inj m).mp ht
    have hne : m ++ r ≠ [] := List.ne_nil_of_mem hu
    have hstop : r.takeWhile inLine = [] := by
      cases r with
      | nil => rfl
      | cons v r =>
          have hv := isTerminator_of_mem_lineSeparator (hr.subset List.mem_cons_self)
          rw [List.takeWhile_cons_of_neg (by simp [inLine, hv])]
    rw [Mockbank.readLine, if_neg hne, Option.map_some, List.takeWhile_append_of_pos hline, hstop,
      List.append_nil]

/-- A printed line holds a terminator. -/
theorem any_isTerminator_println (m : JString) (sep : LineSeparator) :
    (m ++ sep.text).any isTerminator = true := by
  obtain ⟨u, hu⟩ := List.exists_mem_of_ne_nil _ sep.text_ne_nil
  exact List.any_eq_true.mpr
    ⟨u, List.mem_append_right m hu, isTerminator_of_mem_lineSeparator hu⟩

/-- A line terminator is no part of a line, so a line that is read of the beginning of a
printed one is a beginning of it. -/
theorem prefix_of_line {m t text : JString} {sep : LineSeparator} (ht : t <+: m ++ sep.text)
    (h : (Mockbank.readLine t).map Prod.fst = some text) : text <+: m := by
  have htext : text = t.takeWhile inLine := by
    unfold Mockbank.readLine at h
    split at h
    · contradiction
    · exact (Option.some.inj h).symm
  have hbegins : text <+: m ++ sep.text := by
    rw [htext]
    exact (List.takeWhile_prefix inLine).trans ht
  rcases List.prefix_or_prefix_of_prefix hbegins (List.prefix_append m sep.text) with hm | hm
  · exact hm
  · obtain ⟨r, hr⟩ := hm
    have hsep : r <+: sep.text := (List.prefix_append_right_inj m).mp (hr ▸ hbegins)
    cases r with
    | nil => exact ⟨[], by rw [List.append_nil, ← hr, List.append_nil]⟩
    | cons v r =>
        have hv := isTerminator_of_mem_lineSeparator (hsep.subset List.mem_cons_self)
        have hmem : v ∈ t.takeWhile inLine := by
          rw [← htext, ← hr]
          exact List.mem_append_right m List.mem_cons_self
        have hin := List.all_eq_true.mp List.all_takeWhile v hmem
        rw [inLine, hv] at hin
        contradiction

/-- Bytes arrive in the order in which they were sent. -/
theorem arrived_prefix_sent (p : Pipe) : p.arrived <+: p.sent :=
  List.prefix_append _ _

/-- A reader of a pipe that ends in a whole line, if it ends, gets the line. -/
theorem eq_of_readLine {pl : Platform} {m : JString} (hm : IsAscii m)
    (hline : ∀ u ∈ m, inLine u = true) {p : Pipe} (hsent : p.sent <+: pl.println m)
    (hclosed : p.ending = .closed → p.sent = pl.println m) {cs : AsciiCharset}
    {data : Option JString} (h : p.readLine cs = .line data) : data = some m := by
  obtain ⟨t, ht, hdecode, hwhole⟩ := exists_text hm ((arrived_prefix_sent p).trans hsent) cs
  rw [Pipe.readLine, hdecode] at h
  split at h
  next hterminator =>
    rw [← Reading.line.inj h, readLine_of_prefix hline ht hterminator]
  next hnone =>
    split at h
    next hinFlight =>
      cases hending : p.ending with
      | stillOpen => simp [hending] at h
      | broken => simp [hending] at h
      | closed =>
          have hall := hclosed hending
          rw [Pipe.sent, hinFlight, List.append_nil] at hall
          rw [hwhole hall] at hnone
          exact absurd (any_isTerminator_println m _) hnone
    next => contradiction

/-- A reader of a pipe that ends anywhere in a printed line gets a beginning of the line or
nothing. -/
theorem prefix_of_readLine {pl : Platform} {m : JString} (hm : IsAscii m) {p : Pipe}
    (hsent : p.sent <+: pl.println m) {cs : AsciiCharset} {data : Option JString}
    (h : p.readLine cs = .line data) (text : JString) (htext : data = some text) :
    text <+: m := by
  obtain ⟨t, ht, hdecode, _⟩ := exists_text hm ((arrived_prefix_sent p).trans hsent) cs
  have hdata : data = (Mockbank.readLine t).map Prod.fst := by
    rw [Pipe.readLine, hdecode] at h
    split at h
    · exact (Reading.line.inj h).symm
    · split at h
      · cases hending : p.ending with
        | stillOpen => simp [hending] at h
        | broken => simp [hending] at h
        | closed =>
            rw [hending] at h
            exact (Reading.line.inj h).symm
      · contradiction
  exact prefix_of_line ht (hdata.symm.trans htext)

/-- A reader blocks while bytes are to come; a line that has arrived it gets. -/
theorem of_readLine_blocks {pl : Platform} {m : JString} (hm : IsAscii m) {p : Pipe}
    (hsent : p.sent = pl.println m) {cs : AsciiCharset} (h : p.readLine cs = .blocks) :
    p.inFlight ≠ [] := by
  intro hinFlight
  obtain ⟨t, _, hdecode, hwhole⟩ := exists_text hm
    (hsent ▸ arrived_prefix_sent p) cs
  rw [Pipe.sent, hinFlight, List.append_nil] at hsent
  rw [Pipe.readLine, hdecode, hwhole hsent] at h
  simp only [any_isTerminator_println, if_true] at h
  contradiction

/-- A reader throws only when the other side has gone. -/
theorem of_readLine_throws {cs : AsciiCharset} {p : Pipe} (h : p.readLine cs = .throws) :
    p.ending = .broken := by
  rw [Pipe.readLine] at h
  split at h
  · contradiction
  · split at h
    · cases hending : p.ending with
      | stillOpen => simp [hending] at h
      | closed => simp [hending] at h
      | broken => rfl
    · contradiction

/-- Where nothing has been sent there is nothing to read. -/
theorem readLine_of_nothing {cs : AsciiCharset} {p : Pipe} (hsent : p.sent = [])
    (hending : p.ending = .stillOpen) : p.readLine cs = .blocks := by
  obtain ⟨harrived, hinFlight⟩ := List.append_eq_nil_iff.mp hsent
  have hdecode : cs.decode [] = [] := cs.decode_ascii [] (by simp)
  rw [Pipe.readLine, harrived, hdecode, if_neg (by simp), if_pos hinFlight, hending]

/-! ## What every action preserves -/

theorem isAscii_question : IsAscii question :=
  isAscii_lit (by decide)

theorem isAscii_answer : IsAscii answer :=
  isAscii_lit (by decide)

/-- The question is one line. -/
theorem inLine_question : ∀ u ∈ question, inLine u = true := by
  have hall : question.all inLine = true := by
    rw [question, lit_ofList]
    decide
  exact List.all_eq_true.mp hall

/-- So is the answer. -/
theorem inLine_answer : ∀ u ∈ answer, inLine u = true := by
  have hall : answer.all inLine = true := by
    rw [answer, lit_ofList]
    decide
  exact List.all_eq_true.mp hall

/-- What the client has sent by the time it stands somewhere, and what it has printed. -/
def ClientSide (pl : Platform) (p : Pipe) : Client → Prop
  | .waiting => p.sent = pl.println question ∧ p.ending = .stillOpen
  | .printed text => p.sent = pl.println question ∧ p.ending = .stillOpen ∧ text = answer
  | .done text => p.sent = pl.println question ∧ p.ending = .closed ∧ text = answer
  | .failed => False
  | .killed => p.sent <+: pl.println question ∧ p.ending ≠ .stillOpen
  | _ => p.sent = [] ∧ p.ending = .stillOpen

/-- What the handler has sent by the time it stands somewhere. -/
def HandlerSide (pl : Platform) (p : Pipe) : Handler → Prop
  | .answered => p.sent = pl.println answer ∧ p.ending = .closed
  | .closed => p.sent = pl.println answer ∧ p.ending = .closed
  | _ => p.sent = [] ∧ p.ending = .stillOpen

/-- The handler has sent its answer. -/
def Handler.hasAnswered : Handler → Bool
  | .answered => true
  | .closed => true
  | _ => false

/-- The handler has printed what it received. -/
def Handler.hasReceived : Handler → Bool
  | .received => true
  | .answering => true
  | .answered => true
  | .closed => true
  | _ => false

/-- What the client has printed. -/
def Client.text? : Client → Option JString
  | .printed text => some text
  | .done text => some text
  | _ => none

/-- The bytes between the parties are those that the parties have sent, and neither party is
ahead of the other. -/
structure Link.Consistent (pl spl : Platform) (l : Link) : Prop where
  client : ClientSide pl l.toServer l.client
  handler : HandlerSide spl l.toClient l.handler
  printed : l.client.text? ≠ none → l.handler.hasAnswered = true
  session : l.handler = .backlog →
    l.client = .new ∨ l.client = .connected ∨ l.client = .killed
  alone : l.handler = .failed → l.client = .killed

/-- A connection begins consistent. -/
theorem consistent_new (pl spl : Platform) : Link.new.Consistent pl spl where
  client := ⟨rfl, rfl⟩
  handler := ⟨rfl, rfl⟩
  printed h := absurd rfl h
  session _ := Or.inl rfl
  alone h := by contradiction

variable {pl spl : Platform} {l : Link}

/-- The handler finds nothing but the question, and the whole of it unless the client has
died. -/
theorem ClientSide.prefix_question {p : Pipe} {c : Client} (h : ClientSide pl p c) :
    p.sent <+: pl.println question ∧
      (c ≠ .killed → p.ending = .closed → p.sent = pl.println question) ∧
      (p.ending = .broken → c = .killed) := by
  cases c with
  | waiting => exact ⟨h.1 ▸ List.prefix_rfl, fun _ _ => h.1, fun hb => by simp [h.2] at hb⟩
  | printed text =>
      exact ⟨h.1 ▸ List.prefix_rfl, fun _ _ => h.1, fun hb => by simp [h.2.1] at hb⟩
  | done text => exact ⟨h.1 ▸ List.prefix_rfl, fun _ _ => h.1, fun hb => by simp [h.2.1] at hb⟩
  | failed => exact absurd h id
  | killed => exact ⟨h.1, fun hlives => absurd rfl hlives, fun _ => rfl⟩
  | _ =>
      exact ⟨h.1 ▸ List.nil_prefix, fun _ hc => by simp [h.2] at hc, fun hb => by simp [h.2] at hb⟩

/-- What a handler can have received of a client: the question, or a beginning of it or nothing
when the client has died. -/
def Heard (c : Client) (data : Option JString) : Prop :=
  data = some question ∨ c = .killed ∧ ∀ text, data = some text → text <+: question

/-- What a handler gets out of its connection. -/
theorem ClientSide.heard {p : Pipe} {c : Client} (h : ClientSide pl p c) {cs : AsciiCharset}
    {data : Option JString} (hread : p.readLine cs = .line data) : Heard c data := by
  obtain ⟨hsent, hclosed, _⟩ := h.prefix_question
  by_cases hlives : c = .killed
  · exact Or.inr ⟨hlives, prefix_of_readLine isAscii_question hsent hread⟩
  · exact Or.inl (eq_of_readLine isAscii_question inLine_question hsent (hclosed hlives) hread)

/-- The client finds nothing but the answer, and it once the handler has sent it. -/
theorem HandlerSide.prefix_answer {p : Pipe} {h : Handler} (hside : HandlerSide pl p h) :
    p.sent <+: pl.println answer ∧ (p.ending = .closed → p.sent = pl.println answer) ∧
      p.ending ≠ .broken ∧ (h.hasAnswered = false → p.sent = [] ∧ p.ending = .stillOpen) := by
  cases h with
  | answered =>
      exact ⟨hside.1 ▸ List.prefix_rfl, fun _ => hside.1, by simp [hside.2],
        fun hnot => by contradiction⟩
  | closed =>
      exact ⟨hside.1 ▸ List.prefix_rfl, fun _ => hside.1, by simp [hside.2],
        fun hnot => by contradiction⟩
  | _ =>
      exact ⟨hside.1 ▸ List.nil_prefix, fun hc => by simp [hside.2] at hc, by simp [hside.2],
        fun _ => hside⟩

/-- What is sent stands behind what was sent before. -/
theorem sent_send (p : Pipe) (bs : List UInt8) : (p.send bs).sent = p.sent ++ bs :=
  (List.append_assoc _ _ _).symm

/-- Bytes that arrive are neither lost nor doubled. -/
theorem sent_deliver {p p' : Pipe} {n : Nat} (h : p.deliver n = some p') :
    p'.sent = p.sent ∧ p'.ending = p.ending ∧ p'.inFlight.length < p.inFlight.length := by
  rw [Pipe.deliver] at h
  split at h
  · contradiction
  · next hne =>
      obtain rfl := Option.some.inj h
      have hpos := List.length_pos_iff.mpr hne
      refine ⟨?_, rfl, ?_⟩
      · simp [Pipe.sent]
      · simp only [List.length_drop]
        omega

/-- What the client has sent does not depend on how much of it has arrived. -/
theorem ClientSide.congr {p p' : Pipe} {c : Client} (h : ClientSide pl p c)
    (hsent : p'.sent = p.sent) (hending : p'.ending = p.ending) : ClientSide pl p' c := by
  cases c with
  | failed => exact h
  | _ => simpa only [ClientSide, hsent, hending] using h

/-- Nor does what the handler has sent. -/
theorem HandlerSide.congr {p p' : Pipe} {c : Handler} (h : HandlerSide pl p c)
    (hsent : p'.sent = p.sent) (hending : p'.ending = p.ending) : HandlerSide pl p' c := by
  cases c with
  | _ => simpa only [HandlerSide, hsent, hending] using h

/-- A step of the client keeps the connection consistent. -/
theorem Link.Consistent.clientStep {l' : Link} (h : l.Consistent pl spl)
    (hstep : l.clientStep pl = some l') : l'.Consistent pl spl := by
  rcases l with ⟨client, handler, toServer, toClient⟩
  obtain ⟨hclient, hhandler, hprinted, hsession, halone⟩ := h
  simp only at hclient hhandler hprinted hsession halone
  cases client with
  | new =>
      obtain rfl := Option.some.inj hstep
      exact ⟨hclient, hhandler, hprinted, fun _ => Or.inr (Or.inl rfl),
        fun hf => by simpa using halone hf⟩
  | connected =>
      simp only [Link.clientStep] at hstep
      split at hstep
      next => contradiction
      next hbacklog =>
        obtain rfl := Option.some.inj hstep
        exact ⟨hclient, hhandler, hprinted, fun hb => absurd hb hbacklog,
          fun hf => by simpa using halone hf⟩
  | ready =>
      obtain rfl := Option.some.inj hstep
      exact ⟨hclient, hhandler, hprinted, fun hb => by simpa using hsession hb,
        fun hf => by simpa using halone hf⟩
  | asking =>
      obtain rfl := Option.some.inj hstep
      refine ⟨⟨?_, hclient.2⟩, hhandler, hprinted, fun hb => by simpa using hsession hb,
        fun hf => by simpa using halone hf⟩
      rw [sent_send, hclient.1, List.nil_append]
  | waiting =>
      obtain ⟨hsending, hclosed, hbroken, hnothing⟩ := hhandler.prefix_answer
      simp only [Link.clientStep] at hstep
      cases hread : toClient.readLine pl.charset with
      | line data =>
          rw [hread] at hstep
          obtain rfl := Option.some.inj hstep
          have hdata := eq_of_readLine isAscii_answer inLine_answer hsending hclosed hread
          have hanswered : handler.hasAnswered = true := by
            by_contra hnot
            obtain ⟨hsent, hopen⟩ := hnothing (Bool.eq_false_iff.mpr hnot)
            rw [readLine_of_nothing hsent hopen] at hread
            contradiction
          exact ⟨⟨hclient.1, hclient.2, by rw [hdata]; rfl⟩, hhandler, fun _ => hanswered,
            fun hb => by simpa using hsession hb, fun hf => by simpa using halone hf⟩
      | blocks => simp [hread] at hstep
      | throws => exact absurd (of_readLine_throws hread) hbroken
  | printed text =>
      obtain rfl := Option.some.inj hstep
      exact ⟨⟨hclient.1, rfl, hclient.2.2⟩, hhandler, fun _ => hprinted (by simp [Client.text?]),
        fun hb => by simpa using hsession hb, fun hf => by simpa using halone hf⟩
  | done text => contradiction
  | failed => contradiction
  | killed => contradiction

/-- What an action makes of a consistent connection, with the lines that it prints. -/
structure Follows (pl spl : Platform) (l : Link) (lines : List JString) (l' : Link) : Prop where
  consistent : l'.Consistent pl spl
  stays : l.handler.hasReceived = true → l'.handler.hasReceived = true
  silent : l.handler.hasReceived = l'.handler.hasReceived → lines = []
  prints : l.handler.hasReceived ≠ l'.handler.hasReceived →
    ∃ data, Heard l'.client data ∧ lines = [received data]
  dead : l.client = .killed → l'.client = .killed

/-- An action that leaves the handler where it is, as far as receiving goes, prints nothing. -/
theorem follows_of_same {l' : Link} (h : l'.Consistent pl spl)
    (hsame : l.handler.hasReceived = l'.handler.hasReceived)
    (hdead : l.client = .killed → l'.client = .killed) : Follows pl spl l [] l' where
  consistent := h
  stays hreceived := by rw [← hsame, hreceived]
  silent _ := rfl
  prints hdiffers := absurd hsame hdiffers
  dead := hdead

/-- The handler prints one line, of what it has received. -/
theorem Link.Consistent.handlerStep {l' : Link} {lines : List JString}
    (h : l.Consistent pl spl) (hstep : l.handlerStep spl = some (l', lines)) :
    Follows pl spl l lines l' := by
  rcases l with ⟨client, handler, toServer, toClient⟩
  obtain ⟨hclient, hhandler, hprinted, hsession, halone⟩ := h
  simp only at hclient hhandler hprinted hsession halone
  cases handler with
  | backlog => contradiction
  | accepted =>
      obtain ⟨rfl, rfl⟩ := Prod.mk.inj (Option.some.inj hstep)
      exact follows_of_same ⟨hclient, hhandler, hprinted, fun hb => by contradiction,
        fun hf => by contradiction⟩ rfl id
  | reading =>
      simp only [Link.handlerStep] at hstep
      cases hread : toServer.readLine spl.charset with
      | line data =>
          simp only [hread] at hstep
          obtain ⟨rfl, rfl⟩ := Prod.mk.inj (Option.some.inj hstep)
          exact {
            consistent := ⟨hclient, hhandler, fun hp => absurd (hprinted hp) Bool.false_ne_true,
              fun hb => by contradiction, fun hf => by contradiction⟩
            stays := fun _ => rfl
            silent := fun hsame => by contradiction
            prints := fun _ => ⟨data, hclient.heard hread, rfl⟩
            dead := id }
      | blocks => simp [hread] at hstep
      | throws =>
          simp only [hread] at hstep
          obtain ⟨rfl, rfl⟩ := Prod.mk.inj (Option.some.inj hstep)
          exact follows_of_same ⟨hclient, hhandler, hprinted, fun hb => by contradiction,
            fun _ => hclient.prefix_question.2.2 (of_readLine_throws hread)⟩ rfl id
  | received =>
      obtain ⟨rfl, rfl⟩ := Prod.mk.inj (Option.some.inj hstep)
      exact follows_of_same ⟨hclient, hhandler, hprinted, fun hb => by contradiction,
        fun hf => by contradiction⟩ rfl id
  | answering =>
      obtain ⟨rfl, rfl⟩ := Prod.mk.inj (Option.some.inj hstep)
      refine follows_of_same ⟨hclient, ⟨?_, rfl⟩, fun _ => rfl, fun hb => by contradiction,
        fun hf => by contradiction⟩ rfl id
      show (toClient.send (spl.println answer)).sent = _
      rw [sent_send, hhandler.1, List.nil_append]
  | answered =>
      obtain ⟨rfl, rfl⟩ := Prod.mk.inj (Option.some.inj hstep)
      exact follows_of_same ⟨hclient, hhandler, fun _ => rfl, fun hb => by contradiction,
        fun hf => by contradiction⟩ rfl id
  | closed => contradiction
  | failed => contradiction

/-- A step of the client leaves the handler where it is; a client that is dead takes none, and
no step kills it. -/
theorem of_clientStep {l' : Link} (hstep : l.clientStep pl = some l') :
    l'.handler = l.handler ∧ l.client ≠ .killed ∧ l'.client ≠ .killed := by
  rcases l with ⟨client, handler, toServer, toClient⟩
  cases client with
  | connected =>
      simp only [Link.clientStep] at hstep
      split at hstep
      · contradiction
      · obtain rfl := Option.some.inj hstep
        exact ⟨rfl, by simp, by simp⟩
  | waiting =>
      simp only [Link.clientStep] at hstep
      cases hread : toClient.readLine pl.charset <;> simp only [hread] at hstep
      · obtain rfl := Option.some.inj hstep
        exact ⟨rfl, by simp, by simp⟩
      · contradiction
      · obtain rfl := Option.some.inj hstep
        exact ⟨rfl, by simp, by simp⟩
  | done text => contradiction
  | failed => contradiction
  | killed => contradiction
  | _ =>
      obtain rfl := Option.some.inj hstep
      exact ⟨rfl, by simp, by simp⟩

/-- A step of the handler leaves the client where it is. -/
theorem client_handlerStep {l' : Link} {lines : List JString}
    (hstep : l.handlerStep pl = some (l', lines)) : l'.client = l.client := by
  rcases l with ⟨client, handler, toServer, toClient⟩
  cases handler with
  | reading =>
      simp only [Link.handlerStep] at hstep
      cases hread : toServer.readLine pl.charset <;> simp only [hread] at hstep
      · obtain ⟨rfl, _⟩ := Prod.mk.inj (Option.some.inj hstep)
        rfl
      · contradiction
      · obtain ⟨rfl, _⟩ := Prod.mk.inj (Option.some.inj hstep)
        rfl
  | backlog => contradiction
  | closed => contradiction
  | failed => contradiction
  | _ =>
      obtain ⟨rfl, _⟩ := Prod.mk.inj (Option.some.inj hstep)
      rfl

/-- What every action preserves. -/
theorem Link.Consistent.act {a : Action} {l' : Link} {lines : List JString}
    (h : l.Consistent pl spl) (hact : l.act pl spl a = some (l', lines)) :
    Follows pl spl l lines l' := by
  cases a with
  | client =>
      obtain ⟨l₁, hstep, heq⟩ := Option.map_eq_some_iff.mp hact
      obtain ⟨rfl, rfl⟩ := Prod.mk.inj heq
      obtain ⟨hhandler, hlives, _⟩ := of_clientStep hstep
      exact follows_of_same (h.clientStep hstep) (by rw [hhandler]) fun hk => absurd hk hlives
  | accept =>
      rw [Link.act] at hact
      split at hact
      next hbacklog =>
        obtain ⟨rfl, rfl⟩ := Prod.mk.inj (Option.some.inj hact)
        have hhandler := h.handler
        have hprinted := h.printed
        rw [hbacklog.1] at hhandler hprinted
        exact follows_of_same ⟨h.client, hhandler, hprinted, fun hb => by contradiction,
          fun hf => by contradiction⟩ (by rw [hbacklog.1]; rfl) id
      next => contradiction
  | handler => exact h.handlerStep hact
  | arriveAtServer n =>
      obtain ⟨p, hdeliver, heq⟩ := Option.map_eq_some_iff.mp hact
      obtain ⟨rfl, rfl⟩ := Prod.mk.inj heq
      obtain ⟨hsent, hending, _⟩ := sent_deliver hdeliver
      exact follows_of_same ⟨h.client.congr hsent hending, h.handler, h.printed, h.session,
        h.alone⟩ rfl id
  | arriveAtClient n =>
      obtain ⟨p, hdeliver, heq⟩ := Option.map_eq_some_iff.mp hact
      obtain ⟨rfl, rfl⟩ := Prod.mk.inj heq
      obtain ⟨hsent, hending, _⟩ := sent_deliver hdeliver
      exact follows_of_same ⟨h.client, h.handler.congr hsent hending, h.printed, h.session,
        h.alone⟩ rfl id
  | kill kept reset =>
      rw [Link.act] at hact
      split at hact
      next =>
        obtain ⟨rfl, rfl⟩ := Prod.mk.inj (Option.some.inj hact)
        have hkept : l.toServer.arrived ++ l.toServer.inFlight.take kept <+: l.toServer.sent :=
          (List.prefix_append_right_inj _).mpr (List.take_prefix _ _)
        have hclient : ClientSide pl ⟨l.toServer.arrived, l.toServer.inFlight.take kept,
            if reset || l.client = .connected then .broken else .closed⟩ .killed := by
          refine ⟨hkept.trans h.client.prefix_question.1, ?_⟩
          by_cases hthrows : (reset || l.client = .connected) = true
          · simp [hthrows]
          · simp [hthrows]
        exact follows_of_same ⟨hclient, h.handler, fun hp => absurd rfl hp,
          fun _ => Or.inr (Or.inr rfl), fun _ => rfl⟩ rfl fun _ => rfl
      next => contradiction

/-- A client has printed the answer or nothing, and not before the handler has printed. -/
theorem Link.Consistent.of_text (h : l.Consistent pl spl) {text : JString}
    (htext : l.client.text? = some text) : text = answer ∧ l.handler.hasReceived = true := by
  have hanswered : l.handler.hasAnswered = true := h.printed (by simp [htext])
  have hreceived : l.handler.hasReceived = true := by
    cases hstands : l.handler with
    | answered => rfl
    | closed => rfl
    | _ =>
        rw [hstands] at hanswered
        contradiction
  have hclient := h.client
  cases hstands : l.client with
  | printed printed =>
      rw [hstands] at hclient htext
      exact ⟨(Option.some.inj htext).symm.trans hclient.2.2, hreceived⟩
  | done printed =>
      rw [hstands] at hclient htext
      exact ⟨(Option.some.inj htext).symm.trans hclient.2.2, hreceived⟩
  | _ =>
      rw [hstands] at htext
      contradiction

/-- No action but the death of the client kills it. -/
theorem act_ne_killed {a : Action} {l' : Link} {lines : List JString}
    (hact : l.act pl spl a = some (l', lines)) (ha : a.isKill = false)
    (hlives : l.client ≠ .killed) : l'.client ≠ .killed := by
  cases a with
  | client =>
      obtain ⟨l₁, hstep, heq⟩ := Option.map_eq_some_iff.mp hact
      obtain ⟨rfl, _⟩ := Prod.mk.inj heq
      exact (of_clientStep hstep).2.2
  | accept =>
      rw [Link.act] at hact
      split at hact
      next =>
        obtain ⟨rfl, _⟩ := Prod.mk.inj (Option.some.inj hact)
        exact hlives
      next => contradiction
  | handler => rwa [client_handlerStep hact]
  | arriveAtServer n =>
      obtain ⟨p, _, heq⟩ := Option.map_eq_some_iff.mp hact
      obtain ⟨rfl, _⟩ := Prod.mk.inj heq
      exact hlives
  | arriveAtClient n =>
      obtain ⟨p, _, heq⟩ := Option.map_eq_some_iff.mp hact
      obtain ⟨rfl, _⟩ := Prod.mk.inj heq
      exact hlives
  | kill kept reset => contradiction

/-! ## The end of a connection -/

/-- What a client still has to do, when its question has so many bytes. -/
def Client.todo (n : Nat) : Client → Nat
  | .new => n + 6
  | .connected => n + 5
  | .ready => n + 4
  | .asking => n + 3
  | .waiting => 2
  | .printed _ => 1
  | .done _ => 0
  | .failed => 0
  | .killed => 0

/-- What a handler still has to do, when its answer has so many bytes. -/
def Handler.todo (n : Nat) : Handler → Nat
  | .backlog => n + 6
  | .accepted => n + 5
  | .reading => n + 4
  | .received => n + 3
  | .answering => n + 2
  | .answered => 1
  | .closed => 0
  | .failed => 0

/-- What is still to be done on a connection, the arrival of single bytes included. -/
def Link.todo (pl spl : Platform) (l : Link) : Nat :=
  l.client.todo (pl.println question).length + l.handler.todo (spl.println answer).length +
    l.toServer.inFlight.length + l.toClient.inFlight.length

/-- Bytes that are sent are on their way. -/
theorem length_inFlight_send (p : Pipe) (bs : List UInt8) :
    (p.send bs).inFlight.length = p.inFlight.length + bs.length :=
  List.length_append

/-- A step of the client uses up some of what there is to do. -/
theorem todo_clientStep_lt {l' : Link} (hstep : l.clientStep pl = some l') :
    l'.todo pl spl < l.todo pl spl := by
  rcases l with ⟨client, handler, toServer, toClient⟩
  cases client with
  | connected =>
      simp only [Link.clientStep] at hstep
      split at hstep
      · contradiction
      · obtain rfl := Option.some.inj hstep
        simp only [Link.todo, Client.todo]
        omega
  | waiting =>
      simp only [Link.clientStep] at hstep
      cases hread : toClient.readLine pl.charset <;> simp only [hread] at hstep
      · obtain rfl := Option.some.inj hstep
        simp only [Link.todo, Client.todo]
        omega
      · contradiction
      · obtain rfl := Option.some.inj hstep
        simp only [Link.todo, Client.todo]
        omega
  | done text => contradiction
  | failed => contradiction
  | killed => contradiction
  | _ =>
      obtain rfl := Option.some.inj hstep
      simp only [Link.todo, Client.todo, length_inFlight_send]
      omega

/-- So does a step of the handler. -/
theorem todo_handlerStep_lt {l' : Link} {lines : List JString}
    (hstep : l.handlerStep spl = some (l', lines)) : l'.todo pl spl < l.todo pl spl := by
  rcases l with ⟨client, handler, toServer, toClient⟩
  cases handler with
  | reading =>
      simp only [Link.handlerStep] at hstep
      cases hread : toServer.readLine spl.charset <;> simp only [hread] at hstep
      · obtain ⟨rfl, _⟩ := Prod.mk.inj (Option.some.inj hstep)
        simp only [Link.todo, Handler.todo]
        omega
      · contradiction
      · obtain ⟨rfl, _⟩ := Prod.mk.inj (Option.some.inj hstep)
        simp only [Link.todo, Handler.todo]
        omega
  | backlog => contradiction
  | closed => contradiction
  | failed => contradiction
  | _ =>
      obtain ⟨rfl, _⟩ := Prod.mk.inj (Option.some.inj hstep)
      simp only [Link.todo, Handler.todo, length_inFlight_send]
      omega

/-- A client that runs has something to do. -/
theorem todo_pos_of_running {c : Client} (h : c.Running) (n : Nat) : 0 < c.todo n := by
  cases c with
  | new => exact absurd h id
  | done text => exact absurd h id
  | failed => exact absurd h id
  | killed => exact absurd h id
  | _ => simp only [Client.todo]; omega

theorem todo_killed (n : Nat) : Client.killed.todo n = 0 :=
  rfl

/-- Every action uses up some of what there is to do. -/
theorem todo_act_lt {a : Action} {l' : Link} {lines : List JString}
    (hact : l.act pl spl a = some (l', lines)) : l'.todo pl spl < l.todo pl spl := by
  cases a with
  | client =>
      obtain ⟨l₁, hstep, heq⟩ := Option.map_eq_some_iff.mp hact
      obtain ⟨rfl, _⟩ := Prod.mk.inj heq
      exact todo_clientStep_lt hstep
  | accept =>
      rw [Link.act] at hact
      split at hact
      next hbacklog =>
        obtain ⟨rfl, _⟩ := Prod.mk.inj (Option.some.inj hact)
        simp only [Link.todo, hbacklog.1, Handler.todo]
        omega
      next => contradiction
  | handler => exact todo_handlerStep_lt hact
  | arriveAtServer n =>
      obtain ⟨p, hdeliver, heq⟩ := Option.map_eq_some_iff.mp hact
      obtain ⟨rfl, _⟩ := Prod.mk.inj heq
      have hlt := (sent_deliver hdeliver).2.2
      simp only [Link.todo]
      omega
  | arriveAtClient n =>
      obtain ⟨p, hdeliver, heq⟩ := Option.map_eq_some_iff.mp hact
      obtain ⟨rfl, _⟩ := Prod.mk.inj heq
      have hlt := (sent_deliver hdeliver).2.2
      simp only [Link.todo]
      omega
  | kill kept reset =>
      rw [Link.act] at hact
      split at hact
      next hrunning =>
        obtain ⟨rfl, _⟩ := Prod.mk.inj (Option.some.inj hact)
        have hpos := todo_pos_of_running hrunning (pl.println question).length
        have htake := List.length_take_le' kept l.toServer.inFlight
        simp only [Link.todo, todo_killed]
        omega
      next => contradiction

/-- Something can be done on a connection, other than killing its client. -/
def Link.CanGoOn (pl spl : Platform) (l : Link) : Prop :=
  ∃ a : Action, a.isKill = false ∧ l.act pl spl a ≠ none

theorem canGoOn_of_clientStep (h : l.clientStep pl ≠ none) : l.CanGoOn pl spl :=
  ⟨.client, rfl, by simpa [Link.act] using h⟩

theorem canGoOn_of_handlerStep (h : l.handlerStep spl ≠ none) : l.CanGoOn pl spl :=
  ⟨.handler, rfl, h⟩

theorem canGoOn_of_toServer (h : l.toServer.inFlight ≠ []) : l.CanGoOn pl spl :=
  ⟨.arriveAtServer 0, rfl, by simp [Link.act, Pipe.deliver, h]⟩

theorem canGoOn_of_toClient (h : l.toClient.inFlight ≠ []) : l.CanGoOn pl spl :=
  ⟨.arriveAtClient 0, rfl, by simp [Link.act, Pipe.deliver, h]⟩

/-- While the client waits, what it waits for is on its way. -/
theorem Link.Consistent.canGoOn_of_waiting (h : l.Consistent pl spl)
    (hwaiting : l.client = .waiting) : l.CanGoOn pl spl := by
  have hclient := h.client
  have hhandler := h.handler
  rw [hwaiting] at hclient
  cases hstands : l.handler with
  | backlog => simpa [hwaiting] using h.session hstands
  | reading =>
      cases hread : l.toServer.readLine spl.charset with
      | line data =>
          apply canGoOn_of_handlerStep
          simp [Link.handlerStep, hstands, hread]
      | blocks => exact canGoOn_of_toServer (of_readLine_blocks isAscii_question hclient.1 hread)
      | throws =>
          apply canGoOn_of_handlerStep
          simp [Link.handlerStep, hstands, hread]
  | closed =>
      rw [hstands] at hhandler
      cases hread : l.toClient.readLine pl.charset with
      | blocks => exact canGoOn_of_toClient (of_readLine_blocks isAscii_answer hhandler.1 hread)
      | line data =>
          apply canGoOn_of_clientStep
          simp [Link.clientStep, hwaiting, hread]
      | throws =>
          apply canGoOn_of_clientStep
          simp [Link.clientStep, hwaiting, hread]
  | failed => simpa [hwaiting] using h.alone hstands
  | _ =>
      apply canGoOn_of_handlerStep
      simp [Link.handlerStep, hstands]

/-- A connection whose client lives can go on until both parties are done. -/
theorem Link.Consistent.progress (h : l.Consistent pl spl) (hlives : l.client ≠ .killed) :
    (l.client = .done answer ∧ l.handler = .closed) ∨ l.CanGoOn pl spl := by
  have hclient := h.client
  have hprinted := h.printed
  cases hstands : l.client with
  | connected =>
      by_cases hbacklog : l.handler = .backlog
      · exact Or.inr ⟨.accept, rfl, by simp [Link.act, hbacklog, hstands]⟩
      · refine Or.inr (canGoOn_of_clientStep ?_)
        simp [Link.clientStep, hstands, hbacklog]
  | waiting => exact Or.inr (h.canGoOn_of_waiting hstands)
  | done text =>
      rw [hstands] at hclient hprinted
      have hanswered := hprinted (by simp [Client.text?])
      cases hat : l.handler with
      | closed => exact Or.inl ⟨by rw [hclient.2.2], rfl⟩
      | answered =>
          refine Or.inr (canGoOn_of_handlerStep ?_)
          simp [Link.handlerStep, hat]
      | _ =>
          rw [hat] at hanswered
          contradiction
  | failed =>
      rw [hstands] at hclient
      exact absurd hclient id
  | killed => exact absurd hstands hlives
  | _ =>
      refine Or.inr (canGoOn_of_clientStep ?_)
      simp [Link.clientStep, hstands]

end Ssl
end Mockbank
