import MailFilter.Proofs.Relay.Standing

/-
  What a client sends to a relay, and when it may.

  A dialogue is a list of moves. With each move the client
  sends something and waits for a reply, whose code decides
  whether the dialogue goes on. So what is sent is known from
  the moves and the replies alone.

  Key definitions include:
    * `Relay.Move`
    * `Relay.saidThen`
    * `Relay.Errand`
    * `Relay.Errand.moves`
    * `Relay.Errand.said`
    * `Relay.Errand.IsKept`
    * `Relay.Errand.IsAccepted`

  Main statements:
    * `Relay.leads_handOver`
    * `Relay.Errand.ended_run`
    * `Relay.Errand.isKept_run`
-/

namespace MailFilter.Relay

open Bytes

variable {σ : Type}

------------------------------------------------------------
-- Moves
------------------------------------------------------------

/-
  What the client sends before it waits for a reply, and the
  codes with which the dialogue goes on.
-/
structure Move where
  items : List Bytes
  accepts : Nat → Bool

/- What comes when a reply has one of the codes. -/
def awaits
    (accepts : Nat → Bool)
    (tail : Script) : Script
  | [] => []
  | response :: more =>
      if accepts response.code then tail more else []

/- What is sent in some moves, and what comes then. -/
def saidThen
    (tail : Script) : List Move → Script
  | [], replies => tail replies
  | move :: rest, replies =>
      move.items ++
        awaits move.accepts (saidThen tail rest) replies

/- All of the moves have got a reply that lets them go on. -/
def accepted : List Move → List Response → Bool
  | [], _ => true
  | _ :: _, [] => false
  | move :: rest, response :: more =>
      move.accepts response.code && accepted rest more

/- What is sent when all moves have been accepted. -/
theorem saidThen_of_accepted
    (tail : Script)
    {moves : List Move}
    {replies : List Response}
    (hAccepted : accepted moves replies = true) :
    saidThen tail moves replies =
      moves.flatMap Move.items ++
        tail (replies.drop moves.length) := by
  induction moves generalizing replies with
  | nil => rfl
  | cons move rest ih =>
      cases replies with
      | nil => cases hAccepted
      | cons response more =>
          simp only [accepted, Bool.and_eq_true] at hAccepted
          simp only [saidThen, awaits, hAccepted.1, if_true,
            ih hAccepted.2, List.flatMap_cons,
            List.append_assoc, List.length_cons,
            List.drop_succ_cons]

/- Otherwise what would come then does not count. -/
theorem saidThen_of_not_accepted
    (tail other : Script)
    {moves : List Move}
    {replies : List Response}
    (hNot : accepted moves replies = false) :
    saidThen tail moves replies = saidThen other moves replies := by
  induction moves generalizing replies with
  | nil => cases hNot
  | cons move rest ih =>
      cases replies with
      | nil => rfl
      | cons response more =>
          simp only [saidThen, awaits]
          split
          · rename_i hAccepts
            rw [ih (by simpa [accepted, hAccepts] using hNot)]
          · rfl

/- No more is sent than what the moves are about. -/
theorem prefix_saidThen
    (moves : List Move)
    (replies : List Response) :
    saidThen (fun _ => []) moves replies
      <+: moves.flatMap Move.items := by
  induction moves generalizing replies with
  | nil => exact List.prefix_refl _
  | cons move rest ih =>
      rw [saidThen, List.flatMap_cons,
        List.prefix_append_right_inj]
      cases replies with
      | nil => exact List.nil_prefix
      | cons response more =>
          simp only [awaits]
          split
          · exact ih more
          · exact List.nil_prefix

/- Some moves, and then some more. -/
theorem saidThen_append
    (tail : Script)
    (front back : List Move) :
    saidThen tail (front ++ back) =
      saidThen (saidThen tail back) front := by
  induction front with
  | nil => rfl
  | cons move rest ih =>
      funext replies
      rw [List.cons_append, saidThen, saidThen, ih]

/- Who goes on after some moves has got them accepted. -/
theorem accepted_of_length
    {tail : Script}
    {front back : List Move}
    {replies : List Response}
    (hLength :
      (front.flatMap Move.items).length <
        (saidThen tail (front ++ back) replies).length) :
    accepted front replies = true := by
  cases hAccepted : accepted front replies with
  | true => rfl
  | false =>
      rw [saidThen_append,
        saidThen_of_not_accepted _ (fun _ => []) hAccepted]
        at hLength
      have hShort := (prefix_saidThen front replies).length_le
      omega

/- Every accepted move has a reply with such a code. -/
theorem exists_of_accepted
    {moves : List Move}
    {replies : List Response}
    (hAccepted : accepted moves replies = true)
    {i : Nat}
    {move : Move}
    (hMove : moves[i]? = some move) :
    ∃ response,
      replies[i]? = some response ∧
        move.accepts response.code = true := by
  induction moves generalizing replies i with
  | nil => cases hMove
  | cons first rest ih =>
      cases replies with
      | nil => cases hAccepted
      | cons response more =>
          simp only [accepted, Bool.and_eq_true] at hAccepted
          cases i with
          | zero =>
              cases hMove
              exact ⟨response, rfl, hAccepted.1⟩
          | succ i => exact ih hAccepted.2 hMove

/- A move is accepted after all before it. -/
theorem accepted_concat
    {moves : List Move}
    {replies : List Response}
    (hAccepted : accepted moves replies = true)
    {move : Move}
    {response : Response}
    (hReply : replies[moves.length]? = some response)
    (hCode : move.accepts response.code = true) :
    accepted (moves ++ [move]) replies = true := by
  induction moves generalizing replies with
  | nil =>
      cases replies with
      | nil => cases hReply
      | cons first more =>
          cases hReply
          simpa [accepted] using hCode
  | cons first rest ih =>
      cases replies with
      | nil => cases hAccepted
      | cons reply more =>
          simp only [accepted, List.cons_append,
            Bool.and_eq_true] at hAccepted ⊢
          exact ⟨hAccepted.1, ih hAccepted.2 hReply⟩

------------------------------------------------------------
-- Errands
------------------------------------------------------------

/- A command as it is sent. -/
def commandLine
    (text : String) : Bytes :=
  Utf8.encode text ++ crlf

/- A move whose reply has to have one of some codes. -/
def Move.requiring
    (items : List Bytes)
    (codes : List Nat) : Move :=
  ⟨items, codes.contains⟩

/- A message that is to be handed over, and by whom. -/
structure Errand where
  helo : String
  sender : String
  recipients : List String
  data : Bytes

namespace Errand

/- The relay speaks first. -/
def greeting : Move :=
  .requiring [] [220]

/- Whatever the answer is, the dialogue goes on. -/
def extendedHelo
    (errand : Errand) : Move :=
  ⟨[commandLine ("EHLO " ++ errand.helo)], fun _ => true⟩

def plainHelo
    (errand : Errand) : Move :=
  .requiring [commandLine ("HELO " ++ errand.helo)] [250]

def mailFrom
    (errand : Errand) : Move :=
  .requiring
    [commandLine ("MAIL FROM:<" ++ errand.sender ++ ">")] [250]

def recipient
    (address : String) : Move :=
  .requiring [commandLine ("RCPT TO:<" ++ address ++ ">")]
    [250, 251]

def dataCommand : Move :=
  .requiring [commandLine "DATA"] [354]

def message
    (errand : Errand) : Move :=
  .requiring [dotStuff errand.data, terminator] [250]

def quit : Move :=
  ⟨[commandLine "QUIT"], fun _ => true⟩

/- HELO is the answer to a refused EHLO only. -/
def greetings
    (errand : Errand)
    (fallback : Bool) : List Move :=
  greeting :: errand.extendedHelo ::
    (if fallback then [errand.plainHelo] else [])

/- All moves before that of the message. -/
def before
    (errand : Errand)
    (fallback : Bool) : List Move :=
  errand.greetings fallback ++
    errand.mailFrom :: errand.recipients.map recipient ++
    [dataCommand]

def moves
    (errand : Errand)
    (fallback : Bool) : List Move :=
  errand.before fallback ++ [errand.message, quit]

/- The second reply, which is that to EHLO, is a refusal. -/
def fallsBack : List Response → Bool
  | _ :: response :: _ => response.code != 250
  | _ => false

/- What is to be sent, given the replies. -/
def said
    (errand : Errand) : Script :=
  fun replies =>
    saidThen (fun _ => []) (errand.moves (fallsBack replies))
      replies

/-
  The dialogue keeps to an errand: what is written comes in
  the order of the moves, nothing of a move is written before
  all earlier moves have got a complete reply that accepts
  them, nothing is written after a failed write, and unless a
  write fails all is written that the replies ask for.
-/
structure IsKept
    (errand : Errand)
    (transfers : List Transfer) : Prop where
  ordered :
    ∀ past, past <+: transfers →
      written past
        <+: (errand.moves
          (fallsBack (replies (received past)))).flatMap
            Move.items
  accepted :
    ∀ past, past <+: transfers →
      ∀ front back,
        errand.moves (fallsBack (replies (received past))) =
            front ++ back →
        (front.flatMap Move.items).length <
            (written past).length →
        ∀ (i : Nat) (move : Move), front[i]? = some move →
          ∃ response,
            (replies (received past))[i]? = some response ∧
              move.accepts response.code = true
  last :
    ∀ past item fault future,
      transfers = past ++ .wrote item (.error fault) :: future →
      future = []
  complete :
    IsWhole transfers →
      written transfers =
        errand.said (replies (received transfers))

/-
  The relay has answered the message with 250, after it was
  sent as a whole.
-/
def IsAccepted
    (errand : Errand)
    (transfers : List Transfer) : Prop :=
  let answers := replies (received transfers)
  let before := errand.before (fallsBack answers)
  (before ++ [errand.message]).flatMap Move.items
      <+: carried transfers ∧
    ∃ response,
      answers[before.length]? = some response ∧
        response.code = 250

------------------------------------------------------------
-- Following An Errand
------------------------------------------------------------

/- What comes after EHLO, by the reply to it. -/
def helloThen
    (errand : Errand)
    (tail : Script) : Script
  | [] => []
  | response :: more =>
      if response.code = 250 then tail more
      else saidThen tail [errand.plainHelo] more

/- What is to be sent, up to the reply to the message. -/
def saidBefore
    (errand : Errand)
    (tail : Script) : Script :=
  saidThen
    (fun replies =>
      commandLine ("EHLO " ++ errand.helo) ::
        errand.helloThen
          (saidThen tail
            (errand.mailFrom :: errand.recipients.map recipient ++
              [dataCommand, errand.message])) replies)
    [greeting]

/- The reply to EHLO decides on the moves. -/
theorem saidBefore_eq
    (errand : Errand)
    (tail : Script)
    (answers : List Response) :
    errand.saidBefore tail answers =
      saidThen tail
        (errand.before (fallsBack answers) ++ [errand.message])
        answers := by
  cases answers with
  | nil => rfl
  | cons first others =>
      cases others with
      | nil => rfl
      | cons second more =>
          by_cases hCode : second.code = 250
          · have hNone :
                fallsBack (first :: second :: more) = false := by
              simp [fallsBack, hCode]
            rw [hNone]
            simp [saidBefore, before, greetings, saidThen,
              awaits, helloThen, extendedHelo, hCode]
          · have hFallback :
                fallsBack (first :: second :: more) = true := by
              simp [fallsBack, hCode]
            rw [hFallback]
            simp [saidBefore, before, greetings, saidThen,
              awaits, helloThen, extendedHelo, hCode]

/- QUIT comes last, and nothing after its reply. -/
theorem said_eq
    (errand : Errand)
    (answers : List Response) :
    errand.said answers =
      errand.saidBefore (fun _ => [commandLine "QUIT"])
        answers := by
  have hQuit :
      saidThen (fun _ => []) [quit] =
        fun _ => [commandLine "QUIT"] := by
    funext replies
    cases replies with
    | nil => rfl
    | cons response more => rfl
  rw [saidBefore_eq, ← hQuit, ← saidThen_append]
  simp [said, moves]

end Errand

------------------------------------------------------------
-- Parts Of The Dialogue
------------------------------------------------------------

variable {script rest : Script}
variable (peer : Peer σ)

theorem leads_command
    (line : String)
    (hRest : rest [] = []) :
    Leads script (command peer.traced line)
      (fun more => commandLine line :: rest more)
      fun response =>
        Stands script fun more => rest (response :: more) := by
  apply Leads.bind
  · exact leads_logged _
  · intro _
    apply Leads.bind
    · exact leads_send peer _
    · intro _
      exact leads_readResponse peer hRest

theorem leads_commandRequiring
    (line : String)
    (codes : List Nat) :
    Leads script (commandRequiring peer.traced line codes)
      (saidThen rest [.requiring [commandLine line] codes])
      fun _ => Stands script rest := by
  apply Leads.bind
  · exact leads_command peer line rfl
  · intro response
    apply Leads.bind
    · exact leads_require codes response
    · intro _
      exact leads_pure fun _ hStands => hStands

theorem leads_nameRecipients
    (recipients : List String) :
    Leads script (nameRecipients peer.traced recipients)
      (saidThen rest (recipients.map Errand.recipient))
      fun _ => Stands script rest := by
  induction recipients with
  | nil => exact leads_pure fun _ hStands => hStands
  | cons recipient others ih =>
      apply Leads.bind
      · exact leads_commandRequiring peer _ _
      · intro _
        exact ih

theorem leads_greet
    (errand : Errand) :
    Leads script (greet peer.traced errand.helo)
      (fun replies =>
        commandLine ("EHLO " ++ errand.helo) ::
          errand.helloThen rest replies)
      fun _ => Stands script rest := by
  apply Leads.bind
  · exact leads_command peer _ rfl
  · intro response
    by_cases hCode : response.code = 250
    · simp only [Errand.helloThen, hCode, if_true]
      exact leads_pure fun _ hStands => hStands
    · simp only [Errand.helloThen, hCode, if_false]
      exact leads_commandRequiring peer _ _

theorem leads_sendData
    (errand : Errand) :
    Leads script (sendData peer.traced errand.data)
      (saidThen rest [Errand.dataCommand, errand.message])
      fun _ => Stands script rest := by
  apply Leads.bind
  · exact leads_commandRequiring peer _ _
  · intro _
    apply Leads.bind
    · exact leads_logged _
    · intro _
      apply Leads.bind
      · exact leads_send peer _
      · intro _
        apply Leads.bind
        · exact leads_send peer _
        · intro _
          apply Leads.bind
          · exact leads_readResponse peer rfl
          · intro response
            apply Leads.bind
            · exact leads_require [250] response
            · intro _
              exact leads_pure fun _ hStands => hStands

/- All of the dialogue but the command that ends it. -/
def handOver
    (peer : Peer σ)
    (errand : Errand) : Dialogue σ Unit := do
  let greeting ← readResponse peer
  let _ ← ExceptT.mk (pure (greeting.require [220]))
  greet peer errand.helo
  commandRequiring peer
    ("MAIL FROM:<" ++ errand.sender ++ ">") [250]
  nameRecipients peer errand.recipients
  sendData peer errand.data

theorem deliver_eq
    (errand : Errand) :
    deliver peer errand.helo errand.sender errand.recipients
        errand.data =
      handOver peer errand >>= fun _ => quit peer := by
  simp only [deliver, handOver, bind_assoc]

theorem leads_handOver
    (errand : Errand) :
    Leads script (handOver peer.traced errand)
      (errand.saidBefore rest)
      fun _ => Stands script rest := by
  let message := [Errand.dataCommand, errand.message]
  have hNames :
      Leads script (nameRecipients peer.traced errand.recipients)
        (saidThen (saidThen rest message)
          (errand.recipients.map Errand.recipient))
        fun _ => Stands script (saidThen rest message) :=
    leads_nameRecipients peer errand.recipients
  rw [← saidThen_append] at hNames
  apply Leads.bind
  · exact leads_readResponse peer rfl
  · intro greeting
    apply Leads.bind
    · exact leads_require [220] greeting
    · intro _
      apply Leads.bind
      · exact leads_greet peer errand
      · intro _
        apply Leads.bind
        · exact leads_commandRequiring peer _ _
        · intro _
          apply Leads.bind
          · exact hNames
          · intro _
            exact leads_sendData peer errand

------------------------------------------------------------
-- The Whole Dialogue
------------------------------------------------------------

/- A client on a new connection has all still to send. -/
theorem stands_start
    (script : Script)
    (stream : σ) :
    Stands script script { stream := (stream, []) } := by
  refine ⟨⟨[], fun _ => rfl, fun _ => rfl⟩, rfl, ?_, ?_⟩
  · intro item fault hMem
    cases hMem
  · intro past hPast
    rw [List.prefix_nil.mp hPast]
    exact List.nil_prefix

/- The log has no part in that it is over. -/
theorem Ended.congr
    {client after : Client (σ × List Transfer)}
    (hEnded : Ended script client)
    (hStream : after.stream = client.stream)
    (hSent : after.sent = client.sent) :
    Ended script after := by
  refine ⟨?_, ?_, ?_⟩
  · rw [hStream, hSent]
    exact hEnded.sent
  · rw [hStream]
    exact hEnded.safe
  · rw [hStream]
    exact hEnded.last

/- QUIT is sent, and what becomes of it does not matter. -/
theorem Stands.quit
    {client : Client (σ × List Transfer)}
    (hStands :
      Stands script (fun _ => [commandLine "QUIT"]) client) :
    (outcome (Relay.quit peer.traced) client).1 = .ok () ∧
      Ended script
        (outcome (Relay.quit peer.traced) client).2 ∧
      client.stream.2
        <+: (outcome (Relay.quit peer.traced) client
          ).2.stream.2 := by
  have hCommand :
      Comes script (fun _ => Stands script fun _ => [])
        (outcome (command peer.traced "QUIT") client) :=
    leads_command peer "QUIT" rfl client hStands
  rcases exists_command peer "QUIT" client with
    ⟨write, reads, hStream, -⟩
  rw [outcome_quit]
  rcases hOutcome : outcome (command peer.traced "QUIT") client
    with ⟨result, after⟩
  rw [hOutcome] at hCommand hStream
  have hPrefix : client.stream.2 <+: after.stream.2 := by
    rw [hStream]
    exact List.prefix_append _ _
  cases result with
  | ok response => exact ⟨rfl, hCommand.ended rfl, hPrefix⟩
  | error e => exact ⟨rfl, hCommand.congr rfl rfl, hPrefix⟩

namespace Errand

/- Hand over a message on a new connection. -/
def run
    (errand : Errand)
    (peer : Peer σ)
    (stream : σ) : Except DeliveryError Unit × Client σ :=
  Relay.run peer stream errand.helo errand.sender
    errand.recipients errand.data

/- What is transferred then. -/
def transfers
    (errand : Errand)
    (peer : Peer σ)
    (stream : σ) : List Transfer :=
  (errand.run peer.traced (stream, [])).2.stream.2

/- A dialogue that is over has kept to its errand. -/
theorem isKept_of_ended
    {errand : Errand}
    {client : Client (σ × List Transfer)}
    (hEnded : Ended errand.said client) :
    errand.IsKept client.stream.2 where
  ordered past hPast :=
    (hEnded.safe past hPast).trans (prefix_saidThen _ _)
  accepted past hPast front back hMoves hLength i move hMove := by
    have hSafe := (hEnded.safe past hPast).length_le
    rw [said, hMoves] at hSafe
    exact exists_of_accepted
      (accepted_of_length (Nat.lt_of_lt_of_le hLength hSafe))
      hMove
  last past item fault future hSplit := by
    rcases hEnded.last with
      ⟨hWhole, -⟩ | ⟨before, other, reason, hStream, hWhole⟩
    · refine absurd ?_ (hWhole item fault)
      rw [hSplit]
      exact List.mem_append_right past List.mem_cons_self
    · rcases List.eq_nil_or_concat' future with
        hNil | ⟨more, final, rfl⟩
      · exact hNil
      · refine absurd ?_ (hWhole item fault)
        rw [hStream, ← List.cons_append, ← List.append_assoc]
          at hSplit
        rw [(List.append_inj' hSplit rfl).1]
        exact List.mem_append_right past List.mem_cons_self
  complete hWhole := by
    rcases hEnded.last with
      ⟨-, hAll⟩ | ⟨before, item, fault, hStream, -⟩
    · exact hAll
    · refine absurd ?_ (hWhole item fault)
      rw [hStream]
      exact List.mem_append_right before List.mem_cons_self

/-
  A client that is still there after the message has sent it
  and got it accepted.
-/
theorem isAccepted_of_stands
    {errand : Errand}
    {client : Client (σ × List Transfer)}
    (hStands :
      ∀ tail, Stands (errand.saidBefore tail) tail client)
    {record : List Transfer}
    (hRecord : client.stream.2 <+: record) :
    errand.IsAccepted record := by
  rcases hRecord with ⟨future, rfl⟩
  generalize hAnswers :
    replies (received (client.stream.2 ++ future)) = answers
  have hTail :
      ∀ tail : Script,
        (∀ some others, tail some = tail others) →
        errand.saidBefore tail answers =
          written client.stream.2 ++ tail [] := by
    intro tail hConst
    rcases (hStands tail).place with ⟨used, hUsed, hScript⟩
    rw [← hAnswers, received_append, hUsed, hScript,
      hConst _ []]
  have hQuit := hTail (fun _ => [[]]) fun _ _ => rfl
  have hNone := hTail (fun _ => []) fun _ _ => rfl
  rw [saidBefore_eq] at hQuit hNone
  cases hAccepted :
      accepted
        (errand.before (fallsBack answers) ++ [errand.message])
        answers with
  | false =>
      rw [saidThen_of_not_accepted _ (fun _ => []) hAccepted,
        hNone] at hQuit
      simp at hQuit
  | true =>
      rw [saidThen_of_accepted _ hAccepted, List.append_nil,
        List.append_nil] at hNone
      have hWhole := (hStands fun _ => []).whole.carried_eq
      unfold IsAccepted
      rw [hAnswers]
      refine ⟨?_, ?_⟩
      · rw [hNone, carried_append, hWhole]
        exact List.prefix_append _ _
      · rcases exists_of_accepted hAccepted
          (List.getElem?_concat_length) with
          ⟨response, hResponse, hCode⟩
        refine ⟨response, hResponse, ?_⟩
        simpa [message, Move.requiring] using hCode

/- Who has sent the message has got all before accepted. -/
theorem accepted_of_sent
    {errand : Errand}
    {fallback : Bool}
    {tail : Script}
    {answers : List Response}
    (hSent :
      ((errand.before fallback ++ [errand.message]).flatMap
          Move.items).length ≤
        (saidThen tail
          (errand.before fallback ++ [errand.message])
          answers).length)
    {response : Response}
    (hResponse :
      answers[(errand.before fallback).length]? = some response)
    (hCode : response.code = 250) :
    accepted (errand.before fallback ++ [errand.message]) answers =
      true := by
  have hBefore :
      accepted (errand.before fallback) answers = true := by
    apply accepted_of_length
    refine Nat.lt_of_lt_of_le ?_ hSent
    simp [message, Move.requiring]
  apply accepted_concat hBefore hResponse
  simp [message, Move.requiring, hCode]

/-
  A dialogue that ended before QUIT has not got the message
  accepted.
-/
theorem not_isAccepted_of_ended
    {errand : Errand}
    {client : Client (σ × List Transfer)}
    (hEnded :
      ∀ tail, Ended (errand.saidBefore tail) client) :
    ¬ errand.IsAccepted client.stream.2 := by
  rintro ⟨hCarried, response, hResponse, hCode⟩
  have hQuit := hEnded fun _ => [[]]
  have hNone := hEnded fun _ => []
  generalize hAnswers :
    replies (received client.stream.2) = answers
    at hCarried hResponse
  have hSent := hCarried.length_le
  rcases hNone.last with
    ⟨hWhole, hAll⟩ | ⟨past, item, fault, hStream, hWhole⟩
  · rw [hWhole.carried_eq] at hSent
    rw [hAnswers, saidBefore_eq] at hAll
    have hAccepted :=
      accepted_of_sent (by rw [← hAll]; exact hSent) hResponse
        hCode
    rcases hQuit.last with
      ⟨-, hMore⟩ | ⟨past, item, fault, hStream, -⟩
    · rw [hAnswers, saidBefore_eq, hAll,
        saidThen_of_accepted _ hAccepted,
        saidThen_of_accepted _ hAccepted] at hMore
      simp at hMore
    · refine hWhole item fault ?_
      rw [hStream]
      exact List.mem_append_right past List.mem_cons_self
  · have hSafe :=
      (hNone.safe _ (List.prefix_refl _)).length_le
    rw [hAnswers, saidBefore_eq] at hSafe
    have hAll :=
      (prefix_saidThen
        (errand.before (fallsBack answers) ++ [errand.message])
        answers).length_le
    rw [hStream, carried_append, hWhole.carried_eq] at hSent
    rw [hStream, written_append] at hSafe
    simp only [carried, written, List.filterMap_cons,
      List.filterMap_nil, List.append_nil, List.length_append,
      List.length_cons, List.length_nil] at hSent hSafe
    omega

/-
  The dialogue comes to an end, and without an error if and
  only if the message was accepted.
-/
theorem ended_run
    (errand : Errand)
    (peer : Peer σ)
    (stream : σ) :
    Ended errand.said (errand.run peer.traced (stream, [])).2 ∧
      ((errand.run peer.traced (stream, [])).1 = .ok () ↔
        errand.IsAccepted (errand.transfers peer stream)) := by
  have hRun :
      errand.run peer.traced (stream, []) =
        outcome
          (handOver peer.traced errand >>= fun _ =>
            Relay.quit peer.traced)
          { stream := (stream, []) } := by
    rw [← deliver_eq]
    rfl
  have hHanded :
      ∀ tail,
        Comes (errand.saidBefore tail)
          (fun _ => Stands (errand.saidBefore tail) tail)
          (outcome (handOver peer.traced errand)
            { stream := (stream, []) }) :=
    fun tail =>
      leads_handOver peer errand _ (stands_start _ stream)
  unfold transfers
  rw [hRun, outcome_bind, funext errand.said_eq]
  rcases hOutcome :
      outcome (handOver peer.traced errand)
        { stream := (stream, []) } with
    ⟨result, client⟩
  rw [hOutcome] at hHanded
  cases result with
  | error e =>
      have hNot := not_isAccepted_of_ended hHanded
      refine ⟨hHanded _, ?_⟩
      constructor
      · intro hOk
        cases hOk
      · intro hAccepted
        exact absurd hAccepted hNot
  | ok done =>
      rcases (hHanded _).quit peer with ⟨hOk, hOver, hPrefix⟩
      refine ⟨hOver, ?_⟩
      constructor
      · intro _
        exact isAccepted_of_stands hHanded hPrefix
      · intro _
        exact hOk

/-
  However a relay behaves, a client keeps to its errand, and
  it takes the message for handed over if and only if the
  relay has accepted it.
-/
theorem isKept_run
    (errand : Errand)
    (peer : Peer σ)
    (stream : σ) :
    errand.run peer stream =
        ((errand.run peer.traced (stream, [])).1,
          (errand.run peer.traced (stream, [])).2.plain) ∧
      (errand.run peer stream).2.sent.reverse =
        written (errand.transfers peer stream) ∧
      errand.IsKept (errand.transfers peer stream) ∧
      ((errand.run peer stream).1 = .ok () ↔
        errand.IsAccepted (errand.transfers peer stream)) := by
  have hTraced :
      errand.run peer stream =
        ((errand.run peer.traced (stream, [])).1,
          (errand.run peer.traced (stream, [])).2.plain) :=
    run_traced peer stream errand.helo errand.sender
      errand.recipients errand.data
  rcases errand.ended_run peer stream with ⟨hEnded, hAccepted⟩
  refine ⟨hTraced, ?_, isKept_of_ended hEnded, ?_⟩
  · rw [hTraced]
    exact hEnded.sent
  · rw [hTraced]
    exact hAccepted

end Errand

end MailFilter.Relay
