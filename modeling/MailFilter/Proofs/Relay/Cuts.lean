import MailFilter.Proofs.Relay.Trace
import MailFilter.Relay.Recorded

/-
  Replies are read in the same way however their bytes arrive.

  A connection carries some bytes if every read gives some of
  those that are still to come, in order. It may cut them at
  any place. The replies that are read one after the other
  depend on the bytes alone, and so does what is left of them.

  Key definitions include:
    * `Relay.Transport.Carries`
    * `Relay.nextReply`
    * `Relay.nextReplies`
    * `Relay.readings`
    * `Relay.Client.Fits`

  Main statements:
    * `Relay.exists_readReply_eq`
    * `Relay.exists_readings_eq`
    * `Relay.readings_of_carries`
-/

namespace MailFilter.Relay

open Bytes

variable {σ τ : Type}

------------------------------------------------------------
-- Connections
------------------------------------------------------------

/- The failure that a read stands for if it gives no bytes. -/
def faultOf : Except Fault Bytes → Fault
  | .ok _ => .endOfFile
  | .error fault => fault

/-
  A connection in some state carries the bytes that are still
  to come. A read gives some of them, and no more than it is
  asked for. When all were read, every read fails in the same
  way.
-/
structure Transport.Carries
    (transport : Transport σ)
    (fault : Fault)
    (Left : σ → Bytes → Prop) : Prop where
  gives :
    ∀ stream bytes, Left stream bytes → bytes ≠ [] →
      ∀ room, 0 < room →
        ∃ data after rest,
          transport.read room stream = (.ok data, after) ∧
            data ≠ [] ∧
            data.length ≤ room ∧
            bytes = data ++ rest ∧
            Left after rest
  ends :
    ∀ stream, Left stream [] → ∀ room,
      ∃ result after,
        transport.read room stream = (result, after) ∧
          (∀ data, result = .ok data → data = []) ∧
          faultOf result = fault ∧
          Left after []

------------------------------------------------------------
-- Replies By The Bytes
------------------------------------------------------------

/-
  The next reply by the bytes that are still to come, and
  those that are left after it. Only so many of them count. If
  these neither complete a reply nor have a line that belongs
  to none, the reply is too long, or it is cut off.
-/
def nextReply
    (address : String)
    (fault : Fault)
    (bytes : Bytes) : Except DeliveryError Response × Bytes :=
  match Response.parse (bytes.take maxReply) with
  | .error e => (.error e, bytes)
  | .ok (some (response, rest)) =>
      (.ok response, rest ++ bytes.drop maxReply)
  | .ok none =>
      if maxReply ≤ bytes.length then
        (.error replyTooLong, bytes)
      else
        (.error (.connection address fault), bytes)

/- The next replies, and the bytes that are left after them. -/
def nextReplies
    (address : String)
    (fault : Fault) :
    Nat → Bytes →
      List (Except DeliveryError Response) × Bytes
  | 0, bytes => ([], bytes)
  | n + 1, bytes =>
      let (reply, rest) := nextReply address fault bytes
      let (replies, rest) := nextReplies address fault n rest
      (reply :: replies, rest)

/- Read replies one after the other. -/
def readings
    (peer : Peer σ) :
    Nat → Client σ →
      List (Except DeliveryError Response) × Client σ
  | 0, client => ([], client)
  | n + 1, client =>
      let (reply, client) := outcome (readResponse peer) client
      let (replies, client) := readings peer n client
      (reply :: replies, client)

------------------------------------------------------------
-- The Buffer
------------------------------------------------------------

/-
  What was read and not used fits in the buffer, and doubling
  the buffer leads to the greatest size that it may have.
-/
structure Client.Fits
    (client : Client σ) : Prop where
  used : client.buffer.length ≤ client.capacity
  grows : ∃ n, client.capacity * 2 ^ n = maxReply

namespace Client.Fits

variable {client : Client σ}

theorem capacity_le
    (hFits : client.Fits) :
    client.capacity ≤ maxReply := by
  rcases hFits.grows with ⟨n, hSize⟩
  rw [← hSize]
  exact Nat.le_mul_of_pos_right _ (Nat.two_pow_pos n)

theorem start
    (stream : σ) :
    ({ stream := stream } : Client σ).Fits :=
  ⟨Nat.zero_le _, 4, show 4096 * 2 ^ 4 = maxReply by decide⟩

/- A smaller part of the buffer fits as well. -/
theorem shorten
    (hFits : client.Fits)
    {rest : Bytes}
    (hShorter : rest.length ≤ client.buffer.length) :
    ({ client with buffer := rest } : Client σ).Fits :=
  ⟨hShorter.trans hFits.used, hFits.grows⟩

/- There is room for more, or the buffer is full for good. -/
theorem room_cases
    (hFits : client.Fits) :
    (client.room ≤ maxReply ∧
        client.buffer.length < client.room ∧
        ∃ n, client.room * 2 ^ n = maxReply) ∨
      (¬ client.room ≤ maxReply ∧
        client.buffer.length = maxReply) := by
  rcases hFits with ⟨hUsed, n, hSize⟩
  unfold Client.room grown
  by_cases hFree : client.buffer.length < client.capacity
  · rw [if_pos hFree]
    refine Or.inl ⟨?_, hFree, n, hSize⟩
    exact Client.Fits.capacity_le ⟨hUsed, n, hSize⟩
  · rw [if_neg hFree]
    cases n with
    | zero =>
        rw [Nat.pow_zero, Nat.mul_one] at hSize
        rw [hSize] at hUsed hFree ⊢
        refine Or.inr ⟨by decide, ?_⟩
        omega
    | succ n =>
        have hDouble : 2 * client.capacity * 2 ^ n = maxReply := by
          rw [← hSize, Nat.pow_succ, Nat.mul_comm 2,
            Nat.mul_assoc, Nat.mul_comm 2]
        have hLe : 2 * client.capacity ≤ maxReply := by
          rw [← hDouble]
          exact Nat.le_mul_of_pos_right _ (Nat.two_pow_pos n)
        have hSome : 0 < client.capacity := by
          rcases Nat.eq_zero_or_pos client.capacity with hZero | hPos
          · rw [hZero, Nat.zero_mul] at hSize
            exact absurd hSize (by decide)
          · exact hPos
        exact Or.inl ⟨hLe, by omega, n, hDouble⟩

end Client.Fits

------------------------------------------------------------
-- Reading A Reply
------------------------------------------------------------

variable {peer : Peer σ}
variable {fault : Fault}
variable {Left : σ → Bytes → Prop}

/- A verdict on the bytes in the buffer is one on all bytes. -/
theorem nextReply_of_ne
    {buffer : Bytes}
    (hSize : buffer.length ≤ maxReply)
    (hParse : Response.parse buffer ≠ .ok none)
    (address : String)
    (fault : Fault)
    (bytes : Bytes) :
    nextReply address fault (buffer ++ bytes) =
      match Response.parse buffer with
      | .error e => (.error e, buffer ++ bytes)
      | .ok (some (response, rest)) =>
          (.ok response, rest ++ bytes)
      | .ok none => (.error replyTooLong, buffer ++ bytes) := by
  have hTake :
      (buffer ++ bytes).take maxReply =
        buffer ++ bytes.take (maxReply - buffer.length) := by
    rw [List.take_append, List.take_of_length_le hSize]
  have hDrop :
      (buffer ++ bytes).drop maxReply =
        bytes.drop (maxReply - buffer.length) := by
    rw [List.drop_append, List.drop_of_length_le hSize]
    rfl
  rw [nextReply, hTake, hDrop,
    Response.parse_append_of_ne hParse]
  cases hVerdict : Response.parse buffer with
  | error e => rfl
  | ok found =>
      cases found with
      | none => exact absurd hVerdict hParse
      | some found =>
          simp only [Response.followedBy, Except.map,
            Option.map_some]
          rw [List.append_assoc, List.take_append_drop]

/- Without one there are too many bytes, or too few. -/
theorem nextReply_of_eq_none
    {bytes : Bytes}
    (hParse : Response.parse (bytes.take maxReply) = .ok none)
    (address : String)
    (fault : Fault) :
    nextReply address fault bytes =
      if maxReply ≤ bytes.length then
          (.error replyTooLong, bytes)
        else (.error (.connection address fault), bytes) := by
  rw [nextReply, hParse]

/-
  Reading once either adds to the buffer what the connection
  gives, or fails because there is nothing to read or no room
  for it.
-/
theorem refill_of_carries
    (hCarries : peer.transport.Carries fault Left)
    {client : Client σ}
    (hFits : client.Fits)
    {bytes : Bytes}
    (hLeft : Left client.stream bytes) :
    (∃ after data rest,
        refill peer client = (.ok (), after) ∧
          after.Fits ∧
          bytes = data ++ rest ∧
          after.buffer = client.buffer ++ data ∧
          Left after.stream rest) ∨
      ∃ e after,
        refill peer client = (.error e, after) ∧
          after.Fits ∧
          after.buffer = client.buffer ∧
          Left after.stream bytes ∧
          ((bytes = [] ∧ client.buffer.length < maxReply ∧
            e = .connection peer.address fault) ∨
            (client.buffer.length = maxReply ∧
              e = replyTooLong)) := by
  unfold refill
  rcases hFits.room_cases with
    ⟨hRoom, hFree, hGrows⟩ | ⟨hRoom, hFull⟩
  · rw [if_pos hRoom]
    have hGap : 0 < client.gap := by
      unfold Client.gap
      omega
    by_cases hNone : bytes = []
    · subst hNone
      rcases hCarries.ends client.stream hLeft client.gap with
        ⟨result, after, hRead, hEmpty, hFault, hAfter⟩
      refine Or.inr ⟨.connection peer.address fault,
        { client with stream := after }, ?_,
        ⟨hFits.used, hFits.grows⟩, rfl, hAfter,
        Or.inl ⟨rfl, by omega, rfl⟩⟩
      rw [hRead, ← hFault]
      cases result with
      | error other => rfl
      | ok data =>
          rw [hEmpty data rfl]
          exact Client.take_of_nil (List.take_nil) _ _
    · rcases hCarries.gives client.stream bytes hLeft hNone
          client.gap hGap with
        ⟨data, after, rest, hRead, hData, hSize, hBytes,
          hAfter⟩
      have hTake : data.take client.gap = data :=
        List.take_of_length_le hSize
      refine Or.inl ⟨{ client with
        stream := after
        capacity := client.room
        buffer := client.buffer ++ data }, data, rest, ?_,
        ⟨?_, hGrows⟩, hBytes, rfl, hAfter⟩
      · rw [hRead, Client.take_of_ne_nil
          (by rw [hTake]; exact hData), hTake]
      · rw [List.length_append]
        unfold Client.gap at hSize
        dsimp only
        omega
  · rw [if_neg hRoom]
    exact Or.inr ⟨_, client, rfl, hFits, rfl, hLeft,
      Or.inr ⟨hFull, rfl⟩⟩

/-
  A reply that is read is the next one by all bytes, whether
  they are in the buffer already or still to come.
-/
theorem exists_readReply_eq
    (hCarries : peer.transport.Carries fault Left)
    {client : Client σ}
    (hFits : client.Fits)
    {bytes : Bytes}
    (hLeft : Left client.stream bytes) :
    ∃ after rest,
      readReply peer client =
          ((nextReply peer.address fault
            (client.buffer ++ bytes)).1, after) ∧
        after.Fits ∧
        Left after.stream rest ∧
        after.buffer ++ rest =
          (nextReply peer.address fault
              (client.buffer ++ bytes)).2 := by
  have hSize := hFits.used.trans hFits.capacity_le
  rw [readReply_eq]
  by_cases hParse : Response.parse client.buffer = .ok none
  · rw [hParse]
    dsimp only
    rcases refill_of_carries hCarries hFits hLeft with
      ⟨after, data, rest, hRefill, hAfter, rfl, hBuffer, hRest⟩
        | ⟨e, after, hRefill, hAfter, hBuffer, hRest, hWhy⟩
    · rw [hRefill]
      dsimp only
      have hShorter := length_of_refill hRefill
      have hNext := exists_readReply_eq hCarries hAfter hRest
      rw [hBuffer, List.append_assoc] at hNext
      exact hNext
    · rw [hRefill]
      dsimp only
      have hNext :
          nextReply peer.address fault (client.buffer ++ bytes) =
            (.error e, client.buffer ++ bytes) := by
        rcases hWhy with ⟨rfl, hLess, rfl⟩ | ⟨hFull, rfl⟩
        · have hTake : client.buffer.take maxReply = client.buffer :=
            List.take_of_length_le hSize
          rw [List.append_nil, nextReply_of_eq_none (by
            rw [hTake, hParse]), if_neg (by omega)]
        · have hTake :
              (client.buffer ++ bytes).take maxReply =
                client.buffer := by
            rw [← hFull, List.take_left]
          rw [nextReply_of_eq_none (by rw [hTake, hParse]),
            if_pos (by rw [List.length_append]; omega)]
      rw [hNext]
      exact ⟨after, bytes, rfl, hAfter, hRest, by rw [hBuffer]⟩
  · rw [nextReply_of_ne hSize hParse]
    cases hVerdict : Response.parse client.buffer with
    | error e => exact ⟨client, bytes, rfl, hFits, hLeft, rfl⟩
    | ok found =>
        cases found with
        | none => exact absurd hVerdict hParse
        | some found =>
            have hShorter : found.2.length ≤ client.buffer.length :=
              (Response.length_parseFrom_lt hVerdict).le
            exact ⟨_, bytes, rfl, hFits.shorten hShorter, hLeft,
              rfl⟩
termination_by maxReply - client.buffer.length

theorem exists_readResponse_eq
    (hCarries : peer.transport.Carries fault Left)
    {client : Client σ}
    (hFits : client.Fits)
    {bytes : Bytes}
    (hLeft : Left client.stream bytes) :
    ∃ after rest,
      outcome (readResponse peer) client =
          ((nextReply peer.address fault
            (client.buffer ++ bytes)).1, after) ∧
        after.Fits ∧
        Left after.stream rest ∧
        after.buffer ++ rest =
          (nextReply peer.address fault
              (client.buffer ++ bytes)).2 := by
  rcases exists_readReply_eq hCarries hFits hLeft with
    ⟨after, rest, hRead, hAfter, hRest, hBytes⟩
  have hSame :
      outcome (ExceptT.mk (readReply peer)) client =
        readReply peer client :=
    rfl
  rw [readResponse, outcome_bind, hSame, hRead]
  cases (nextReply peer.address fault
      (client.buffer ++ bytes)).1 with
  | error e => exact ⟨after, rest, rfl, hAfter, hRest, hBytes⟩
  | ok response =>
      exact ⟨_, rest, rfl, ⟨hAfter.used, hAfter.grows⟩, hRest,
        hBytes⟩

------------------------------------------------------------
-- Reading Replies One After The Other
------------------------------------------------------------

/- All replies that are read are the next ones by the bytes. -/
theorem exists_readings_eq
    (hCarries : peer.transport.Carries fault Left)
    (n : Nat)
    {client : Client σ}
    (hFits : client.Fits)
    {bytes : Bytes}
    (hLeft : Left client.stream bytes) :
    ∃ after rest,
      readings peer n client =
          ((nextReplies peer.address fault n
            (client.buffer ++ bytes)).1, after) ∧
        after.Fits ∧
        Left after.stream rest ∧
        after.buffer ++ rest =
          (nextReplies peer.address fault n
              (client.buffer ++ bytes)).2 := by
  induction n generalizing client bytes with
  | zero => exact ⟨client, bytes, rfl, hFits, hLeft, rfl⟩
  | succ n ih =>
      rcases exists_readResponse_eq hCarries hFits hLeft with
        ⟨between, left, hRead, hBetween, hStill, hBytes⟩
      rcases ih hBetween hStill with
        ⟨after, rest, hReadings, hAfter, hRest, hEnd⟩
      refine ⟨after, rest, ?_, hAfter, hRest, ?_⟩
      · simp only [readings, nextReplies, hRead, hReadings,
          hBytes]
      · simp only [nextReplies]
        rw [hEnd, hBytes]

/- No part of the bytes that count tells of a verdict. -/
theorem forall_take_iff
    (bytes : Bytes)
    (n : Nat) :
    (∀ k ≤ n, Response.parse (bytes.take k) = .ok none) ↔
      Response.parse (bytes.take n) = .ok none := by
  refine ⟨fun hAll => hAll n (Nat.le_refl n), ?_⟩
  intro hNone k hLess
  by_contra hVerdict
  have hTake : (bytes.take n).take k = bytes.take k := by
    rw [List.take_take, Nat.min_eq_left hLess]
  have hMore :
      bytes.take n = bytes.take k ++ (bytes.take n).drop k := by
    rw [← hTake, List.take_append_drop]
  rw [hMore, Response.parse_append_of_ne hVerdict] at hNone
  cases hParse : Response.parse (bytes.take k) with
  | error e =>
      rw [hParse] at hNone
      cases hNone
  | ok found =>
      cases found with
      | none => exact hVerdict hParse
      | some found =>
          rw [hParse] at hNone
          cases hNone

/-
  A reply is refused as too long if the bytes that count are
  all there and tell of no verdict, and besides only if they
  have a line with the words of that refusal.
-/
theorem nextReply_eq_tooLong_iff
    (address : String)
    (fault : Fault)
    (bytes : Bytes) :
    (nextReply address fault bytes).1 = .error replyTooLong ↔
      (maxReply ≤ bytes.length ∧
          ∀ k ≤ maxReply,
            Response.parse (bytes.take k) = .ok none) ∨
        Response.parse (bytes.take maxReply) =
          .error replyTooLong := by
  rw [forall_take_iff]
  cases hParse : Response.parse (bytes.take maxReply) with
  | error e =>
      rw [nextReply, hParse]
      simp
  | ok found =>
      cases found with
      | some found =>
          rw [nextReply, hParse]
          simp
      | none =>
          rw [nextReply_of_eq_none hParse]
          by_cases hSize : maxReply ≤ bytes.length
          · rw [if_pos hSize]
            simp [hSize]
          · rw [if_neg hSize]
            simp [hSize, replyTooLong]

------------------------------------------------------------
-- Connections With Known Arrivals
------------------------------------------------------------

namespace Recorded

/-
  The bytes arrive in pieces, and then the other side closes
  the connection.
-/
def Brings
    (state : Recorded)
    (bytes : Bytes) : Prop :=
  ∃ pieces : List Bytes,
    (∀ piece ∈ pieces, piece ≠ []) ∧
      pieces.flatten = bytes ∧
      state.arrivals = pieces.map .bytes ∧
      state.readSize = none

/- Bytes may be cut into pieces in any way. -/
theorem carries_transport :
    transport.Carries .endOfFile Brings := by
  have hRead :
      ∀ (state : Recorded) (room : Nat), state.readSize = none →
        transport.read room state =
          ((readFrom room state.arrivals).1,
            { state.settle with
              arrivals := (readFrom room state.arrivals).2 }) := by
    intro state room hSize
    change Recorded.read room state = _
    rw [Recorded.read, hSize, Option.getD_none, Nat.min_self]
  have hSettle :
      ∀ state : Recorded,
        state.settle.readSize = state.readSize := by
    intro state
    unfold settle
    split <;> rfl
  constructor
  · rintro state bytes ⟨pieces, hPieces, rfl, hArrivals, hSize⟩
      hSome room hRoom
    rw [hRead state room hSize, hArrivals]
    cases pieces with
    | nil => exact absurd rfl hSome
    | cons piece pieces =>
        rcases List.forall_mem_cons.mp hPieces with
          ⟨hFirst, hLater⟩
        have hFrom :
            readFrom room
                ((piece :: pieces).map Net.Arrival.bytes) =
              (.ok (piece.take room),
                if (piece.drop room).isEmpty then
                  pieces.map Net.Arrival.bytes
                else
                  .bytes (piece.drop room) ::
                    pieces.map Net.Arrival.bytes) := by
          cases piece with
          | nil => exact absurd rfl hFirst
          | cons b piece => rfl
        rw [hFrom]
        refine ⟨_, _, piece.drop room ++ pieces.flatten, rfl, ?_,
          List.length_take_le _ _, ?_, ?_⟩
        · simp [hFirst, Nat.pos_iff_ne_zero.mp hRoom]
        · rw [List.flatten_cons, ← List.append_assoc,
            List.take_append_drop]
        · by_cases hNone : piece.drop room = []
          · refine ⟨pieces, hLater, by rw [hNone]; rfl, ?_,
              (hSettle state).trans hSize⟩
            simp [hNone]
          · refine ⟨piece.drop room :: pieces,
              List.forall_mem_cons.mpr ⟨hNone, hLater⟩, rfl, ?_,
              (hSettle state).trans hSize⟩
            simp [hNone]
  · rintro state ⟨pieces, hPieces, hBytes, hArrivals, hSize⟩ room
    have hNone : pieces = [] := by
      cases pieces with
      | nil => rfl
      | cons piece pieces =>
          rcases List.forall_mem_cons.mp hPieces with
            ⟨hFirst, _⟩
          exact absurd (List.append_eq_nil_iff.mp hBytes).1 hFirst
    subst hNone
    rw [hRead state room hSize, hArrivals]
    refine ⟨_, _, rfl, ?_, rfl, [], by simp, rfl, rfl,
      (hSettle state).trans hSize⟩
    rintro data ⟨⟩
    rfl

end Recorded

------------------------------------------------------------
-- Cuts
------------------------------------------------------------

/-
  The replies that are read one after the other are the same
  for any two connections that carry the same bytes, however
  these are cut. They depend on the bytes alone. What was read
  and not used, with what is still to come, is what is left of
  the bytes, and it fits in the buffer, which never grows
  beyond its greatest size. A verdict on a reply stays what it
  is when more bytes arrive, and a reply takes up whole lines.
-/
theorem readings_of_carries
    {peer : Peer σ}
    {other : Peer τ}
    {fault : Fault}
    {Left : σ → Bytes → Prop}
    {Still : τ → Bytes → Prop}
    (hCarries : peer.transport.Carries fault Left)
    (hOther : other.transport.Carries fault Still)
    (hAddress : other.address = peer.address)
    {stream : σ}
    {flow : τ}
    {bytes : Bytes}
    (hLeft : Left stream bytes)
    (hStill : Still flow bytes) :
    (∀ n,
      (readings peer n { stream := stream }).1 =
          (nextReplies peer.address fault n bytes).1 ∧
        (readings other n { stream := flow }).1 =
          (readings peer n { stream := stream }).1 ∧
        ∃ after rest,
          (readings peer n { stream := stream }).2 = after ∧
            Left after.stream rest ∧
            after.buffer ++ rest =
              (nextReplies peer.address fault n bytes).2 ∧
            after.buffer.length ≤ after.capacity ∧
            after.capacity ≤ maxReply) ∧
      (∀ left : Bytes,
        (nextReply peer.address fault left).1 =
            .error replyTooLong ↔
          (maxReply ≤ left.length ∧
              ∀ k ≤ maxReply,
                Response.parse (left.take k) = .ok none) ∨
            Response.parse (left.take maxReply) =
              .error replyTooLong) ∧
      (∀ buffer more : Bytes,
        Response.parse buffer ≠ .ok none →
          Response.parse (buffer ++ more) =
            Response.followedBy more (Response.parse buffer)) ∧
      ∀ (buffer rest : Bytes) (response : Response),
        Response.parse buffer = .ok (some (response, rest)) →
          ∃ used : Bytes,
            buffer = used ++ rest ∧ used.EndsInLf := by
  refine ⟨?_, nextReply_eq_tooLong_iff peer.address fault,
    fun buffer more hParse =>
      Response.parse_append_of_ne hParse more,
    fun buffer rest response =>
      Response.exists_used_of_parseFrom⟩
  intro n
  rcases exists_readings_eq hCarries n (.start stream) hLeft with
    ⟨after, rest, hRead, hFits, hRest, hBytes⟩
  rcases exists_readings_eq hOther n (.start flow) hStill with
    ⟨_, _, hSame, _⟩
  rw [hRead, hSame, hAddress]
  exact ⟨rfl, rfl, after, rest, rfl, hRest, hBytes, hFits.used,
    hFits.capacity_le⟩

/-
  Two replies, the first one of two lines, arrive at once or
  byte by byte. They are read, and then the relay is gone.
-/
theorem readings_of_carries_bytewise :
    let bytes := Utf8.encode "220-a\r\n220 b\r\n250 c\r\n"
    let pieces := bytes.map fun b => [b]
    let peer : Peer Recorded := ⟨Recorded.transport, "mx:25"⟩
    let replies : List (Except DeliveryError Response) :=
      [.ok ⟨220, ["a", "b"]⟩, .ok ⟨250, ["c"]⟩,
        .error (.connection "mx:25" .endOfFile)]
    (readings peer 3
          { stream := { arrivals := [.bytes bytes] } }).1 =
        replies ∧
      (readings peer 3
          { stream := { arrivals := pieces.map .bytes } }).1 =
        replies := by
  intro bytes pieces peer replies
  have hWhole :
      Recorded.Brings { arrivals := [.bytes bytes] } bytes :=
    ⟨[bytes], by decide +kernel, by simp, rfl, rfl⟩
  have hPieces :
      Recorded.Brings { arrivals := pieces.map .bytes } bytes :=
    ⟨pieces, by decide +kernel, by decide +kernel, rfl, rfl⟩
  have hReplies :
      (nextReplies "mx:25" .endOfFile 3 bytes).1 = replies := by
    decide +kernel
  have hCarries :
      peer.transport.Carries .endOfFile Recorded.Brings :=
    Recorded.carries_transport
  rcases readings_of_carries hCarries hCarries rfl hWhole
      hPieces with
    ⟨hSame, _⟩
  rcases hSame 3 with ⟨hFirst, hSecond, _⟩
  rw [hSecond, hFirst]
  exact ⟨hReplies, hReplies⟩

end MailFilter.Relay
