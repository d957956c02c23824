import MailFilter.Net.Arrival
import MailFilter.Relay.Client

/-
  This file defines a connection on which everything that
  will arrive is known beforehand.

  Key definitions include:
    * `Relay.Recorded`
    * `Relay.Recorded.transport`
-/

namespace MailFilter.Relay

/-
  What is still to arrive, how many writes will succeed and
  what the others meet, how much one read gives at most, and
  what was written: between the last two reads, and before,
  with the newest first.
-/
structure Recorded where
  arrivals : List Net.Arrival
  writes : Option Nat := none
  refusal : Fault := .brokenPipe
  readSize : Option Nat := none
  pending : Bytes := []
  written : List Bytes := []

namespace Recorded

/- Close what was written since the last read. -/
def settle
    (state : Recorded) : Recorded :=
  if state.pending.isEmpty then state
  else
    { state with
      pending := []
      written := state.pending :: state.written }

/- Write bytes. -/
def write
    (data : Bytes)
    (state : Recorded) : Except Fault Unit × Recorded :=
  match state.writes with
  | some 0 => (.error state.refusal, state)
  | writes =>
      (.ok (), { state with
        writes := writes.map (· - 1)
        pending := state.pending ++ data })

/- Read from what is still to arrive. -/
def readFrom
    (room : Nat) :
    List Net.Arrival → Except Fault Bytes × List Net.Arrival
  | [] => (.ok [], [])
  | .stall :: rest => (.error .timedOut, .stall :: rest)
  | .failure text :: rest => (.error (.other text), rest)
  | .bytes [] :: rest => readFrom room rest
  | .bytes data :: rest =>
      let left := data.drop room
      (.ok (data.take room),
        if left.isEmpty then rest else .bytes left :: rest)

/- Read bytes. -/
def read
    (room : Nat)
    (state : Recorded) : Except Fault Bytes × Recorded :=
  let room := min room (state.readSize.getD room)
  let (result, arrivals) := readFrom room state.arrivals
  (result, { state.settle with arrivals := arrivals })

/- The connection. -/
def transport : Transport Recorded :=
  ⟨write, read⟩

/- All that was written, the oldest first. -/
def transcript
    (state : Recorded) : List Bytes :=
  state.settle.written.reverse

end Recorded

end MailFilter.Relay
