import MailFilter.Proofs.Relay.Replies
import MailFilter.Relay.Client

/-
  What a client and a relay transfer, in the order in which
  they do.

  A traced connection records every write with its result and
  every read. A client does on it what it does without the
  record.

  Key definitions include:
    * `Relay.Transfer`
    * `Relay.written`
    * `Relay.received`
    * `Relay.Transport.traced`
    * `Relay.Client.plain`

  Main statements:
    * `Relay.run_traced`
-/

namespace MailFilter.Relay

open Bytes

variable {σ : Type}

------------------------------------------------------------
-- Transfers
------------------------------------------------------------

/- Something is written, or something is read. -/
inductive Transfer where
  | wrote (item : Bytes) (result : Except Fault Unit)
  | got (result : Except Fault Bytes)

/- What was written, the last item perhaps in part only. -/
def written
    (transfers : List Transfer) : List Bytes :=
  transfers.filterMap fun
    | .wrote item _ => some item
    | .got _ => none

/- What was written without a failure. -/
def carried
    (transfers : List Transfer) : List Bytes :=
  transfers.filterMap fun
    | .wrote item (.ok _) => some item
    | _ => none

/- All bytes that were read. -/
def received
    (transfers : List Transfer) : Bytes :=
  transfers.flatMap fun
    | .got (.ok data) => data
    | _ => []

@[simp]
theorem written_append
    (front back : List Transfer) :
    written (front ++ back) = written front ++ written back :=
  List.filterMap_append ..

@[simp]
theorem received_append
    (front back : List Transfer) :
    received (front ++ back) = received front ++ received back :=
  List.flatMap_append ..

@[simp]
theorem carried_append
    (front back : List Transfer) :
    carried (front ++ back) = carried front ++ carried back :=
  List.filterMap_append ..

namespace Transport

/- A connection with a record of what is transferred. -/
def traced
    (transport : Transport σ) :
    Transport (σ × List Transfer) where
  write := fun item (stream, transfers) =>
    let (result, stream) := transport.write item stream
    (result, stream, transfers ++ [.wrote item result])
  read := fun room (stream, transfers) =>
    let (result, stream) := transport.read room stream
    let result := result.map (·.take room)
    (result, stream, transfers ++ [.got result])

end Transport

/- The relay, on a connection with a record. -/
def Peer.traced
    (peer : Peer σ) : Peer (σ × List Transfer) :=
  ⟨peer.transport.traced, peer.address⟩

/- A write is recorded with its result. -/
theorem Peer.write_traced
    {peer : Peer σ}
    {item : Bytes}
    {state : σ × List Transfer}
    {result : Except Fault Unit}
    {stream : σ}
    (hWrite :
      peer.transport.write item state.1 = (result, stream)) :
    peer.traced.transport.write item state =
      (result, stream, state.2 ++ [.wrote item result]) := by
  simp only [traced, Transport.traced, hWrite]

/- A read is recorded with what is used of it. -/
theorem Peer.read_traced
    {peer : Peer σ}
    {room : Nat}
    {state : σ × List Transfer}
    {result : Except Fault Bytes}
    {stream : σ}
    (hRead :
      peer.transport.read room state.1 = (result, stream)) :
    peer.traced.transport.read room state =
      (result.map (·.take room), stream,
        state.2 ++ [.got (result.map (·.take room))]) := by
  simp only [traced, Transport.traced, hRead]

/- A client without the record. -/
def Client.plain
    (client : Client (σ × List Transfer)) : Client σ where
  stream := client.stream.1
  buffer := client.buffer
  capacity := client.capacity
  sent := client.sent
  log := client.log

------------------------------------------------------------
-- Reading
------------------------------------------------------------

namespace Client

/- The size of the buffer for the next read. -/
def room
    (client : Client σ) : Nat :=
  grown client.capacity client.buffer.length

/- How much the next read gives at most. -/
def gap
    (client : Client σ) : Nat :=
  client.room - client.buffer.length

/- What a read comes to. -/
def take
    (client : Client σ)
    (address : String) :
    Except Fault Bytes × σ →
      Except DeliveryError Unit × Client σ
  | (.error fault, stream) =>
      (.error (.connection address fault),
        { client with stream := stream })
  | (.ok data, stream) =>
      if data.take client.gap = [] then
        (.error (.connection address .endOfFile),
          { client with stream := stream })
      else
        (.ok (), { client with
          stream := stream
          capacity := client.room
          buffer := client.buffer ++ data.take client.gap })

theorem take_of_nil
    {client : Client σ}
    {data : Bytes}
    (hTaken : data.take client.gap = [])
    (address : String)
    (stream : σ) :
    client.take address (.ok data, stream) =
      (.error (.connection address .endOfFile),
          { client with stream := stream }) :=
  if_pos hTaken

theorem take_of_ne_nil
    {client : Client σ}
    {data : Bytes}
    (hTaken : data.take client.gap ≠ [])
    (address : String)
    (stream : σ) :
    client.take address (.ok data, stream) =
      (.ok (), { client with
        stream := stream
        capacity := client.room
        buffer := client.buffer ++ data.take client.gap }) :=
  if_neg hTaken

end Client

/- Read once, to have more in the buffer. -/
def refill
    (peer : Peer σ)
    (client : Client σ) :
    Except DeliveryError Unit × Client σ :=
  if client.room ≤ maxReply then
    client.take peer.address
      (peer.transport.read client.gap client.stream)
  else
    (.error replyTooLong, client)

/- After that there is more in the buffer. -/
theorem length_of_refill
    {peer : Peer σ}
    {client after : Client σ}
    (hRefill : refill peer client = (.ok (), after)) :
    maxReply - after.buffer.length <
      maxReply - client.buffer.length := by
  unfold refill at hRefill
  split at hRefill
  · rename_i hRoom
    rcases hRead : peer.transport.read client.gap client.stream
      with ⟨result, stream⟩
    rw [hRead] at hRefill
    cases result with
    | error fault => cases hRefill
    | ok data =>
        by_cases hTaken : data.take client.gap = []
        · rw [Client.take_of_nil hTaken] at hRefill
          cases hRefill
        · rw [Client.take_of_ne_nil hTaken] at hRefill
          cases hRefill
          have hSome := List.length_pos_iff.mpr hTaken
          simp only [List.length_take, List.length_append,
            Client.gap] at hSome ⊢
          omega
  · cases hRefill

/- Reading a reply is reading once, as long as it takes. -/
theorem readReply_eq
    (peer : Peer σ)
    (client : Client σ) :
    readReply peer client =
      match Response.parse client.buffer with
      | .error e => (.error e, client)
      | .ok (some (response, rest)) =>
          (.ok response, { client with buffer := rest })
      | .ok none =>
          match refill peer client with
          | (.error e, after) => (.error e, after)
          | (.ok (), after) => readReply peer after := by
  rw [readReply]
  cases Response.parse client.buffer with
  | error e => rfl
  | ok found =>
      cases found with
      | some found => rfl
      | none =>
          unfold refill
          by_cases hRoom : client.room ≤ maxReply
          · rw [if_pos hRoom]
            refine (if_pos hRoom).trans ?_
            rcases hRead :
                peer.transport.read client.gap client.stream with
              ⟨result, stream⟩
            have hSame := hRead
            simp only [Client.gap, Client.room] at hSame
            simp only [hSame]
            cases result with
            | error fault => rfl
            | ok data =>
                dsimp only
                split
                · rename_i hNil
                  have hTake : data.take client.gap = [] := hNil
                  rw [Client.take_of_nil hTake]
                · rename_i b more hMore
                  have hTake : data.take client.gap = b :: more :=
                    hMore
                  rw [Client.take_of_ne_nil (by simp [hTake]),
                    hTake]
                  rfl
          · rw [if_neg hRoom]
            exact if_neg hRoom

/- Reading once does the same on a connection with a record. -/
theorem refill_traced
    (peer : Peer σ)
    (client : Client (σ × List Transfer)) :
    refill peer client.plain =
      ((refill peer.traced client).1,
        (refill peer.traced client).2.plain) := by
  unfold refill
  by_cases hRoom : client.room ≤ maxReply
  · have hPlain : client.plain.room ≤ maxReply := hRoom
    rw [if_pos hRoom, if_pos hPlain]
    rcases hRead :
        peer.transport.read client.gap client.stream.1 with
      ⟨result, stream⟩
    rw [Peer.read_traced hRead]
    refine (congrArg (client.plain.take peer.address) hRead).trans
      ?_
    cases result with
    | error fault => rfl
    | ok data =>
        have hTwice :
            (data.take client.gap).take client.gap =
              data.take client.gap := by
          rw [List.take_take, Nat.min_self]
        simp only [Except.map]
        by_cases hTaken : data.take client.gap = []
        · have hPlainTaken :
              data.take client.plain.gap = [] :=
            hTaken
          rw [Client.take_of_nil hPlainTaken,
            Client.take_of_nil (hTwice.trans hTaken)]
          rfl
        · have hPlainTaken :
              data.take client.plain.gap ≠ [] :=
            hTaken
          rw [Client.take_of_ne_nil hPlainTaken,
            Client.take_of_ne_nil (by rw [hTwice]; exact hTaken),
            hTwice]
          rfl
  · have hPlain : ¬ client.plain.room ≤ maxReply := hRoom
    rw [if_neg hRoom, if_neg hPlain]

/- At most one read is recorded, and what it gave is kept. -/
theorem refill_cases
    {peer : Peer σ}
    {client after : Client (σ × List Transfer)}
    {result : Except DeliveryError Unit}
    (hRefill : refill peer.traced client = (result, after)) :
    after.sent = client.sent ∧
      (result ≠ .ok () → after.buffer = client.buffer) ∧
      ((after.stream = client.stream ∧
        after.buffer = client.buffer) ∨
        ∃ answer,
          after.stream.2 = client.stream.2 ++ [.got answer] ∧
            after.buffer =
              client.buffer ++ received [.got answer]) := by
  unfold refill at hRefill
  split at hRefill
  · rcases hRead :
        peer.transport.read client.gap client.stream.1 with
      ⟨answer, stream⟩
    rw [Peer.read_traced hRead] at hRefill
    cases answer with
    | error fault =>
        cases hRefill
        exact ⟨rfl, fun _ => rfl, Or.inr
          ⟨_, rfl, (List.append_nil _).symm⟩⟩
    | ok data =>
        simp only [Except.map] at hRefill
        by_cases hTaken :
            (data.take client.gap).take client.gap = []
        · rw [Client.take_of_nil hTaken] at hRefill
          cases hRefill
          rw [List.take_take, Nat.min_self] at hTaken
          refine ⟨rfl, fun _ => rfl, Or.inr ⟨_, rfl, ?_⟩⟩
          simp [received, hTaken]
        · rw [Client.take_of_ne_nil hTaken] at hRefill
          cases hRefill
          refine ⟨rfl, fun hNot => absurd rfl hNot,
            Or.inr ⟨_, rfl, ?_⟩⟩
          simp [received, List.take_take]
  · cases hRefill
    exact ⟨rfl, fun _ => rfl, Or.inl ⟨rfl, rfl⟩⟩

/- Reading a reply reads, and does nothing else. -/
theorem exists_readReply
    (peer : Peer σ)
    (client : Client (σ × List Transfer)) :
    ∃ reads,
      (readReply peer.traced client).2.stream.2 =
          client.stream.2 ++ reads ∧
        written reads = [] := by
  rw [readReply_eq]
  cases Response.parse client.buffer with
  | error e => exact ⟨[], (List.append_nil _).symm, rfl⟩
  | ok found =>
      cases found with
      | some found =>
          exact ⟨[], (List.append_nil _).symm, rfl⟩
      | none =>
          dsimp only
          rcases hRefill : refill peer.traced client with
            ⟨result, after⟩
          obtain ⟨reads, hStream, hReads⟩ :
              ∃ reads,
                after.stream.2 = client.stream.2 ++ reads ∧
                  written reads = [] := by
            rcases refill_cases hRefill with
              ⟨-, -, ⟨hStream, -⟩ | ⟨answer, hStream, -⟩⟩
            · exact ⟨[], by rw [hStream, List.append_nil], rfl⟩
            · exact ⟨_, hStream, rfl⟩
          cases result with
          | error e => exact ⟨reads, hStream, hReads⟩
          | ok done =>
              have hShorter := length_of_refill hRefill
              rcases exists_readReply peer after with
                ⟨more, hMore, hNone⟩
              refine ⟨reads ++ more, ?_, ?_⟩
              · rw [← List.append_assoc, ← hStream]
                exact hMore
              · rw [written_append, hReads, hNone]
                rfl
termination_by maxReply - client.buffer.length

theorem readReply_traced
    (peer : Peer σ)
    (client : Client (σ × List Transfer)) :
    readReply peer client.plain =
      ((readReply peer.traced client).1,
        (readReply peer.traced client).2.plain) := by
  rw [readReply_eq, readReply_eq peer.traced,
    refill_traced]
  change (match Response.parse client.buffer with
    | .error e => _
    | .ok (some (response, rest)) => _
    | .ok none => _) = _
  cases Response.parse client.buffer with
  | error e => rfl
  | ok found =>
      cases found with
      | some found => rfl
      | none =>
          dsimp only
          rcases hRefill : refill peer.traced client with
            ⟨result, after⟩
          cases result with
          | error e => rfl
          | ok done =>
              have hShorter := length_of_refill hRefill
              exact readReply_traced peer after
termination_by maxReply - client.buffer.length

------------------------------------------------------------
-- The Dialogue
------------------------------------------------------------

/- What a part of the dialogue comes to. -/
def outcome
    {α : Type}
    (part : Dialogue σ α)
    (client : Client σ) :
    Except DeliveryError α × Client σ :=
  part.run.run client

/- The second part goes on if the first one did not fail. -/
theorem outcome_bind
    {α β : Type}
    (part : Dialogue σ α)
    (next : α → Dialogue σ β)
    (client : Client σ) :
    outcome (part >>= next) client =
      match outcome part client with
      | (.ok a, after) => outcome (next a) after
      | (.error e, after) => (.error e, after) := by
  simp only [outcome, ExceptT.run_bind, StateT.run_bind]
  rcases part.run.run client with ⟨result, after⟩
  cases result with
  | error e => rfl
  | ok a => rfl

/- What sending an item comes to. -/
theorem outcome_send
    (peer : Peer σ)
    (item : Bytes)
    (client : Client σ) :
    outcome (send peer item) client =
      ((peer.transport.write item client.stream).1.mapError
          (.connection peer.address),
        { client with
          stream := (peer.transport.write item client.stream).2
          sent := item :: client.sent }) := by
  simp only [outcome, send, ExceptT.run_mk]
  rcases hWrite : peer.transport.write item client.stream with
    ⟨result, stream⟩
  simp only [StateT.run, hWrite]
  cases result with
  | error fault => rfl
  | ok done => rfl

/- An error is dealt with. -/
theorem outcome_tryCatch
    {α : Type}
    (part : Dialogue σ α)
    (handler : DeliveryError → Dialogue σ α)
    (client : Client σ) :
    outcome (tryCatch part handler) client =
      match outcome part client with
      | (.ok a, after) => (.ok a, after)
      | (.error e, after) => outcome (handler e) after := by
  simp only [outcome, tryCatch, tryCatchThe,
    MonadExceptOf.tryCatch, ExceptT.tryCatch, ExceptT.run_mk,
    StateT.run_bind]
  have hSame : StateT.run part client = part.run.run client :=
    rfl
  rw [hSame]
  rcases part.run.run client with ⟨result, after⟩
  cases result with
  | error e => rfl
  | ok a => rfl

/- Whatever the answer to QUIT is, no error comes of it. -/
theorem outcome_quit
    (peer : Peer σ)
    (client : Client σ) :
    outcome (quit peer) client =
      match outcome (command peer "QUIT") client with
      | (.ok _, after) => (.ok (), after)
      | (.error e, after) =>
          outcome
            (logged (.internal .debug
              ("Relay " ++ peer.address ++
                " did not answer QUIT: " ++ e.text)))
            after := by
  rw [quit, outcome_tryCatch, outcome_bind]
  rcases outcome (command peer "QUIT") client with
    ⟨result, after⟩
  cases result with
  | error e => rfl
  | ok response => rfl

theorem outcome_logged
    (event : Log.Event)
    (client : Client σ) :
    outcome (logged event) client =
      (.ok (), { client with log := event :: client.log }) :=
  rfl

theorem exists_readResponse
    (peer : Peer σ)
    (client : Client (σ × List Transfer)) :
    ∃ reads,
      (outcome (readResponse peer.traced) client).2.stream.2 =
          client.stream.2 ++ reads ∧
        written reads = [] := by
  have hRead := exists_readReply peer client
  rw [readResponse, outcome_bind]
  have hSame :
      outcome (ExceptT.mk (readReply peer.traced)) client =
        readReply peer.traced client :=
    rfl
  rw [hSame]
  rcases hReply : readReply peer.traced client with
    ⟨result, after⟩
  rw [hReply] at hRead
  cases result with
  | error e => exact hRead
  | ok response => exact hRead

/- A command is written first, whatever comes of it. -/
theorem exists_command
    (peer : Peer σ)
    (line : String)
    (client : Client (σ × List Transfer)) :
    ∃ result reads,
      (outcome (command peer.traced line) client).2.stream.2 =
          client.stream.2 ++
            .wrote (Utf8.encode line ++ crlf) result :: reads ∧
        written reads = [] := by
  rw [command, outcome_bind, outcome_logged]
  dsimp only
  rw [outcome_bind, outcome_send]
  rcases hWrite :
      peer.transport.write (Utf8.encode line ++ crlf)
        client.stream.1 with
    ⟨result, stream⟩
  rw [Peer.write_traced hWrite]
  cases result with
  | error fault => exact ⟨_, [], rfl, rfl⟩
  | ok done =>
      simp only [Except.mapError]
      generalize hSent :
        ({ client with
          stream := _
          sent := _
          log := _ } : Client (σ × List Transfer)) = sent
      rcases exists_readResponse peer sent with
        ⟨reads, hReads, hNone⟩
      refine ⟨.ok done, reads, ?_, hNone⟩
      rw [hReads, ← hSent]
      exact List.append_assoc _ _ _

/- A part does the same on a connection with a record. -/
def Mirrors
    {α : Type}
    (traced : Dialogue (σ × List Transfer) α)
    (part : Dialogue σ α) : Prop :=
  ∀ client : Client (σ × List Transfer),
    outcome part client.plain =
      ((outcome traced client).1,
        (outcome traced client).2.plain)

namespace Mirrors

variable {α β : Type}

theorem pure
    (result : Except DeliveryError α) :
    Mirrors (ExceptT.mk (Pure.pure result) :
        Dialogue (σ × List Transfer) α)
      (ExceptT.mk (Pure.pure result)) :=
  fun _ => rfl

theorem bind
    {traced : Dialogue (σ × List Transfer) α}
    {part : Dialogue σ α}
    (hPart : Mirrors traced part)
    {tracedNext : α → Dialogue (σ × List Transfer) β}
    {next : α → Dialogue σ β}
    (hNext : ∀ a, Mirrors (tracedNext a) (next a)) :
    Mirrors (traced >>= tracedNext) (part >>= next) := by
  intro client
  rw [outcome_bind, outcome_bind, hPart client]
  rcases outcome traced client with ⟨result, after⟩
  cases result with
  | error e => rfl
  | ok a => exact hNext a after

theorem logged
    (event : Log.Event) :
    Mirrors (Relay.logged event :
      Dialogue (σ × List Transfer) Unit) (Relay.logged event) :=
  fun _ => rfl

variable (peer : Peer σ)

theorem send
    (item : Bytes) :
    Mirrors (Relay.send peer.traced item)
      (Relay.send peer item) := by
  intro client
  rw [outcome_send, outcome_send]
  rfl

theorem readResponse :
    Mirrors (Relay.readResponse peer.traced)
      (Relay.readResponse peer) :=
  bind (readReply_traced peer) fun _ =>
    bind (logged _) fun _ => pure _

theorem command
    (line : String) :
    Mirrors (Relay.command peer.traced line)
      (Relay.command peer line) :=
  bind (logged _) fun _ =>
    bind (send peer _) fun _ => readResponse peer

theorem commandRequiring
    (line : String)
    (codes : List Nat) :
    Mirrors (Relay.commandRequiring peer.traced line codes)
      (Relay.commandRequiring peer line codes) :=
  bind (command peer line) fun _ =>
    bind (pure _) fun _ => pure _

theorem nameRecipients
    (recipients : List String) :
    Mirrors (Relay.nameRecipients peer.traced recipients)
      (Relay.nameRecipients peer recipients) := by
  induction recipients with
  | nil => exact pure _
  | cons recipient rest ih =>
      exact bind (commandRequiring peer _ _) fun _ => ih

theorem greet
    (helo : String) :
    Mirrors (Relay.greet peer.traced helo)
      (Relay.greet peer helo) := by
  apply bind (command peer _)
  intro response
  split
  · exact pure _
  · exact commandRequiring peer _ _

theorem sendData
    (data : Bytes) :
    Mirrors (Relay.sendData peer.traced data)
      (Relay.sendData peer data) :=
  bind (commandRequiring peer _ _) fun _ =>
    bind (logged _) fun _ =>
      bind (send peer _) fun _ =>
        bind (send peer _) fun _ =>
          bind (readResponse peer) fun _ =>
            bind (pure _) fun _ => pure _

theorem quit :
    Mirrors (Relay.quit peer.traced) (Relay.quit peer) := by
  intro client
  rw [outcome_quit, outcome_quit, command peer "QUIT" client]
  rcases outcome (Relay.command peer.traced "QUIT") client with
    ⟨result, after⟩
  cases result with
  | error e => rfl
  | ok response => rfl

theorem deliver
    (helo sender : String)
    (recipients : List String)
    (data : Bytes) :
    Mirrors
      (Relay.deliver peer.traced helo sender recipients data)
      (Relay.deliver peer helo sender recipients data) :=
  bind (readResponse peer) fun _ =>
    bind (pure _) fun _ =>
      bind (greet peer helo) fun _ =>
        bind (commandRequiring peer _ _) fun _ =>
          bind (nameRecipients peer recipients) fun _ =>
            bind (sendData peer data) fun _ => quit peer

end Mirrors

/- The record changes nothing about handing a message over. -/
theorem run_traced
    (peer : Peer σ)
    (stream : σ)
    (helo sender : String)
    (recipients : List String)
    (data : Bytes) :
    run peer stream helo sender recipients data =
      ((run peer.traced (stream, []) helo sender recipients
            data).1,
        (run peer.traced (stream, []) helo sender recipients
          data).2.plain) :=
  Mirrors.deliver peer helo sender recipients data
    { stream := (stream, []) }

end MailFilter.Relay
