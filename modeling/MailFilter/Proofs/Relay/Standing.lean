import MailFilter.Proofs.Relay.Trace

/-
  Where a client stands in its dialogue with a relay.

  A script tells what is to be sent, given the replies so far.
  A client stands in it if what it wrote is what the script
  asks for so far, and a rest of the script is what remains to
  be sent, given the replies that are still to come. Every
  part of the dialogue takes a client from one standing to
  another one, or ends the dialogue safely.

  Key definitions include:
    * `Relay.IsSafe`
    * `Relay.Stands`
    * `Relay.Ended`
    * `Relay.Leads`

  Main statements:
    * `Relay.Leads.bind`
    * `Relay.leads_send`
    * `Relay.leads_readResponse`
-/

namespace MailFilter.Relay

open Bytes

variable {σ : Type}

------------------------------------------------------------
-- Transfers
------------------------------------------------------------

/- No write has failed. -/
def IsWhole
    (transfers : List Transfer) : Prop :=
  ∀ item fault, .wrote item (.error fault) ∉ transfers

/- Then all that was written was written without a failure. -/
theorem IsWhole.carried_eq
    {transfers : List Transfer}
    (hWhole : IsWhole transfers) :
    carried transfers = written transfers := by
  induction transfers with
  | nil => rfl
  | cons transfer rest ih =>
      have hRest : carried rest = written rest :=
        ih fun item fault hMem =>
          hWhole item fault (List.mem_cons_of_mem _ hMem)
      cases transfer with
      | got result => exact hRest
      | wrote item result =>
          cases result with
          | error fault =>
              exact absurd List.mem_cons_self (hWhole item fault)
          | ok done => exact congrArg (item :: ·) hRest

theorem IsWhole.concat
    {transfers : List Transfer}
    (hWhole : IsWhole transfers)
    {transfer : Transfer}
    (hOther :
      ∀ item fault, transfer ≠ .wrote item (.error fault)) :
    IsWhole (transfers ++ [transfer]) := by
  intro item fault hMem
  rcases List.mem_append.mp hMem with hOld | hNew
  · exact hWhole item fault hOld
  · exact hOther item fault (List.mem_singleton.mp hNew).symm

------------------------------------------------------------
-- Scripts
------------------------------------------------------------

/- What is to be sent, given the replies. -/
abbrev Script :=
  List Response → List Bytes

/-
  At every moment no more was written than the script asks for
  by the replies that had been received completely.
-/
def IsSafe
    (script : Script)
    (transfers : List Transfer) : Prop :=
  ∀ past, past <+: transfers →
    written past <+: script (replies (received past))

theorem IsSafe.concat
    {script : Script}
    {transfers : List Transfer}
    (hSafe : IsSafe script transfers)
    {transfer : Transfer}
    (hLast :
      written (transfers ++ [transfer])
        <+: script (replies (received
          (transfers ++ [transfer])))) :
    IsSafe script (transfers ++ [transfer]) := by
  intro past hPast
  rcases List.prefix_concat_iff.mp hPast with rfl | hBefore
  · exact hLast
  · exact hSafe past hBefore

/- A client that has `rest` of a script still to send. -/
structure Stands
    (script rest : Script)
    (client : Client (σ × List Transfer)) : Prop where
  place :
    ∃ used,
      (∀ more,
        replies (received client.stream.2 ++ more) =
          used ++ replies (client.buffer ++ more)) ∧
        ∀ more,
          script (used ++ more) =
            written client.stream.2 ++ rest more
  sent : client.sent.reverse = written client.stream.2
  whole : IsWhole client.stream.2
  safe : IsSafe script client.stream.2

/-
  A dialogue that is over: either all was sent that the script
  asks for, or the last thing that happened is that a write
  failed.
-/
structure Ended
    (script : Script)
    (client : Client (σ × List Transfer)) : Prop where
  sent : client.sent.reverse = written client.stream.2
  safe : IsSafe script client.stream.2
  last :
    (IsWhole client.stream.2 ∧
        written client.stream.2 =
          script (replies (received client.stream.2))) ∨
      ∃ past item fault,
        client.stream.2 = past ++ [.wrote item (.error fault)] ∧
          IsWhole past

namespace Stands

variable {script rest : Script}
variable {client after : Client (σ × List Transfer)}

/- What was received is what the script was asked by. -/
theorem written_append_rest
    (hStands : Stands script rest client) :
    script (replies (received client.stream.2)) =
      written client.stream.2 ++
        rest (replies client.buffer) := by
  rcases hStands.place with ⟨used, hReplies, hScript⟩
  have hAll := hReplies []
  rw [List.append_nil, List.append_nil] at hAll
  rw [hAll, hScript]

/- With nothing more to be sent the dialogue is over. -/
theorem ended
    (hStands : Stands script rest client)
    (hRest : rest (replies client.buffer) = []) :
    Ended script client := by
  refine ⟨hStands.sent, hStands.safe,
    Or.inl ⟨hStands.whole, ?_⟩⟩
  rw [hStands.written_append_rest, hRest, List.append_nil]

/- The log has no part in it. -/
theorem congr
    (hStands : Stands script rest client)
    (hStream : after.stream = client.stream)
    (hBuffer : after.buffer = client.buffer)
    (hSent : after.sent = client.sent) :
    Stands script rest after := by
  refine ⟨?_, ?_, ?_, ?_⟩
  · rw [hStream, hBuffer]
    exact hStands.place
  · rw [hStream, hSent]
    exact hStands.sent
  · rw [hStream]
    exact hStands.whole
  · rw [hStream]
    exact hStands.safe

/- Something is read into the buffer. -/
theorem got
    (hStands : Stands script rest client)
    {result : Except Fault Bytes}
    (hStream :
      after.stream.2 = client.stream.2 ++ [.got result])
    (hBuffer :
      after.buffer = client.buffer ++ received [.got result])
    (hSent : after.sent = client.sent) :
    Stands script rest after := by
  rcases hStands.place with ⟨used, hReplies, hScript⟩
  have hWritten :
      written after.stream.2 = written client.stream.2 := by
    rw [hStream, written_append]
    exact List.append_nil _
  have hUsed :
      ∀ more,
        replies (received after.stream.2 ++ more) =
          used ++ replies (after.buffer ++ more) := by
    intro more
    rw [hStream, hBuffer, received_append, List.append_assoc,
      List.append_assoc]
    exact hReplies _
  refine ⟨⟨used, hUsed, ?_⟩, ?_, ?_, ?_⟩
  · rw [hWritten]
    exact hScript
  · rw [hWritten, hSent]
    exact hStands.sent
  · rw [hStream]
    exact hStands.whole.concat (by simp)
  · have hAll := hUsed []
    rw [List.append_nil, List.append_nil] at hAll
    rw [hStream] at hWritten hAll ⊢
    apply hStands.safe.concat
    rw [hWritten, hAll, hScript]
    exact List.prefix_append _ _

/- A reply is taken from the buffer. -/
theorem used
    (hStands : Stands script rest client)
    {response : Response}
    {left : Bytes}
    (hParse :
      Response.parse client.buffer =
        .ok (some (response, left))) :
    Stands script (fun more => rest (response :: more))
      { client with buffer := left } := by
  rcases hStands.place with ⟨used, hReplies, hScript⟩
  refine ⟨⟨used ++ [response], ?_, ?_⟩, hStands.sent,
    hStands.whole, hStands.safe⟩
  · intro more
    rw [hReplies, replies_of_parse hParse]
    simp
  · intro more
    rw [List.append_assoc, hScript]
    rfl

/- The next item may be written, whether that works or not. -/
theorem isSafe_wrote
    {item : Bytes}
    (hStands :
      Stands script (fun more => item :: rest more) client)
    (result : Except Fault Unit) :
    IsSafe script
      (client.stream.2 ++ [.wrote item result]) := by
  apply hStands.safe.concat
  have hNext := hStands.written_append_rest
  rw [written_append, received_append]
  change written client.stream.2 ++ [item]
    <+: script (replies (received client.stream.2 ++ []))
  rw [List.append_nil, hNext]
  exact (List.prefix_append_right_inj _).mpr
    (List.prefix_append [item] _)

/- The next item of the script is sent. -/
theorem wrote
    {item : Bytes}
    (hStands :
      Stands script (fun more => item :: rest more) client)
    (hStream :
      after.stream.2 = client.stream.2 ++ [.wrote item (.ok ())])
    (hBuffer : after.buffer = client.buffer)
    (hSent : after.sent = item :: client.sent) :
    Stands script rest after := by
  rcases hStands.place with ⟨used, hReplies, hScript⟩
  refine ⟨⟨used, ?_, ?_⟩, ?_, ?_, ?_⟩
  · intro more
    rw [hStream, hBuffer, received_append, List.append_assoc]
    exact hReplies more
  · intro more
    rw [hScript, hStream, written_append, List.append_assoc]
    rfl
  · rw [hStream, hSent, written_append, List.reverse_cons,
      hStands.sent]
    rfl
  · rw [hStream]
    exact hStands.whole.concat (by simp)
  · rw [hStream]
    exact hStands.isSafe_wrote _

/- If that fails the dialogue is over. -/
theorem ended_of_broken
    {item : Bytes}
    (hStands :
      Stands script (fun more => item :: rest more) client)
    {fault : Fault}
    (hStream :
      after.stream.2 =
        client.stream.2 ++ [.wrote item (.error fault)])
    (hSent : after.sent = item :: client.sent) :
    Ended script after := by
  refine ⟨?_, ?_, Or.inr ⟨_, item, fault, hStream,
    hStands.whole⟩⟩
  · rw [hStream, hSent, written_append, List.reverse_cons,
      hStands.sent]
    rfl
  · rw [hStream]
    exact hStands.isSafe_wrote _

end Stands

------------------------------------------------------------
-- Parts Of The Dialogue
------------------------------------------------------------

/- A promise about results, or the dialogue is over. -/
def Comes
    {α : Type}
    (script : Script)
    (promise : α → Client (σ × List Transfer) → Prop) :
    Except DeliveryError α × Client (σ × List Transfer) → Prop
  | (.ok a, after) => promise a after
  | (.error _, after) => Ended script after

/-
  A part of the dialogue leads from where `rest` is still to
  be sent to what its results promise, or it ends the
  dialogue.
-/
def Leads
    {α : Type}
    (script : Script)
    (part : Dialogue (σ × List Transfer) α)
    (rest : Script)
    (promise : α → Client (σ × List Transfer) → Prop) : Prop :=
  ∀ client, Stands script rest client →
    Comes script promise (outcome part client)

variable {script rest : Script}

/- What the first part promises is what the second one needs. -/
theorem Leads.bind
    {α β : Type}
    {part : Dialogue (σ × List Transfer) α}
    {next : α → Dialogue (σ × List Transfer) β}
    {left : α → Script}
    {promise : β → Client (σ × List Transfer) → Prop}
    (hPart :
      Leads script part rest fun a => Stands script (left a))
    (hNext : ∀ a, Leads script (next a) (left a) promise) :
    Leads script (part >>= next) rest promise := by
  intro client hStands
  have hFirst := hPart client hStands
  rw [outcome_bind]
  rcases hOutcome : outcome part client with ⟨result, after⟩
  rw [hOutcome] at hFirst
  cases result with
  | error e => exact hFirst
  | ok a => exact hNext a after hFirst

theorem leads_pure
    {α : Type}
    {promise : α → Client (σ × List Transfer) → Prop}
    {a : α}
    (hPromise :
      ∀ client, Stands script rest client → promise a client) :
    Leads script
      (Pure.pure a : Dialogue (σ × List Transfer) α) rest
      promise :=
  hPromise

theorem leads_logged
    (event : Log.Event) :
    Leads script
      (logged event : Dialogue (σ × List Transfer) Unit) rest
      fun _ => Stands script rest :=
  fun _ hStands => hStands.congr rfl rfl rfl

variable (peer : Peer σ)

theorem leads_send
    (item : Bytes) :
    Leads script (send peer.traced item)
      (fun more => item :: rest more)
      fun _ => Stands script rest := by
  intro client hStands
  rcases hWrite : peer.transport.write item client.stream.1 with
    ⟨result, stream⟩
  rw [outcome_send, Peer.write_traced hWrite]
  cases result with
  | error fault =>
      apply hStands.ended_of_broken
      · rfl
      · rfl
  | ok done =>
      apply hStands.wrote
      · rfl
      · rfl
      · rfl

/- Reading once leaves a client where it stands. -/
theorem Stands.refill
    {client after : Client (σ × List Transfer)}
    (hStands : Stands script rest client)
    {result : Except DeliveryError Unit}
    (hRefill : Relay.refill peer.traced client = (result, after)) :
    Stands script rest after := by
  rcases refill_cases hRefill with
    ⟨hSent, -, ⟨hStream, hBuffer⟩ | ⟨answer, hStream, hBuffer⟩⟩
  · exact hStands.congr hStream hBuffer hSent
  · exact hStands.got hStream hBuffer hSent

/- Reading a reply asks the rest of the script for more. -/
theorem Stands.readReply
    {client : Client (σ × List Transfer)}
    (hStands : Stands script rest client)
    (hRest : rest [] = []) :
    Comes script
      (fun response =>
        Stands script fun more => rest (response :: more))
      (Relay.readReply peer.traced client) := by
  have hEnded :
      (∀ first, Response.parse client.buffer ≠ .ok (some first)) →
        Ended script client := by
    intro hNone
    apply hStands.ended
    rw [replies_eq_nil hNone, hRest]
  rw [readReply_eq]
  cases hParse : Response.parse client.buffer with
  | error e =>
      apply hEnded
      simp [hParse]
  | ok found =>
      cases found with
      | some found => exact hStands.used hParse
      | none =>
          dsimp only
          rcases hRefill : Relay.refill peer.traced client with
            ⟨result, after⟩
          have hAfter := hStands.refill peer hRefill
          cases result with
          | error e =>
              apply hAfter.ended
              rw [(refill_cases hRefill).2.1 (by simp),
                replies_eq_nil, hRest]
              simp [hParse]
          | ok done =>
              have hShorter := length_of_refill hRefill
              exact hAfter.readReply hRest
termination_by maxReply - client.buffer.length

theorem leads_readResponse
    (hRest : rest [] = []) :
    Leads script (readResponse peer.traced) rest
      fun response =>
        Stands script fun more => rest (response :: more) := by
  apply Leads.bind
  · intro client hStands
    exact hStands.readReply peer hRest
  · intro response
    apply Leads.bind
    · exact leads_logged _
    · intro _
      exact leads_pure fun _ hStands => hStands

/- A reply that is refused ends the dialogue. -/
theorem leads_require
    (codes : List Nat)
    (response : Response) :
    Leads script
      (ExceptT.mk (Pure.pure (response.require codes)) :
        Dialogue (σ × List Transfer) Response)
      (fun more =>
        if codes.contains response.code then rest more else [])
      fun _ => Stands script rest := by
  intro client hStands
  unfold Response.require
  by_cases hAccepted : codes.contains response.code
  · simp only [hAccepted, if_true] at hStands ⊢
    exact hStands
  · simp only [hAccepted] at hStands ⊢
    exact hStands.ended rfl

end MailFilter.Relay
