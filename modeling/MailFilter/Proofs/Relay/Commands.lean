import Mathlib.Data.List.Infix
import MailFilter.Proofs.Chain.Flush
import MailFilter.Proofs.Message.Joined
import MailFilter.Proofs.Message.Sound
import MailFilter.Proofs.Relay.Safety

/-
  When each command that a client sends to a relay is one
  line.

  The addresses of an envelope may come from header fields.
  A field can go on over several lines, and then an address
  may have the line breaks in it. It is put into a command as
  it is.

  Key definitions include:
    * `Bytes.IsCommandLine`
    * `Relay.Errand.texts`
    * `Relay.Errand.commands`
    * `Nexthop.errand`
    * `Nexthop.IsAddressed`

  Main statements:
    * `Relay.Errand.prefix_commands`
    * `Nexthop.deliver_relay`
    * `Nexthop.areCommandLines_iff`
-/

namespace MailFilter

open Bytes

------------------------------------------------------------
-- Lines
------------------------------------------------------------

/- A text with no line breaks, and the end of a line. -/
def Bytes.IsCommandLine
    (item : Bytes) : Prop :=
  ∃ text : Bytes, item = text ++ crlf ∧ cr ∉ text ∧ lf ∉ text

/- An ASCII character is written as the byte of its code. -/
theorem Utf8.mem_encode_iff
    {c : Char}
    (hAscii : c.toNat < 0x80)
    {text : String} :
    UInt8.ofNat c.toNat ∈ Utf8.encode text ↔ c ∈ text.toList := by
  have hNat : (UInt8.ofNat c.toNat).toNat = c.toNat :=
    Utf8.toNat_ofNat_of_lt (by omega)
  constructor
  · intro hMem
    have hChar := Utf8.mem_of_mem_encode
      (UInt8.lt_iff_toNat_lt.mpr (by rw [hNat]; exact hAscii))
      hMem
    rwa [hNat, Char.ofNat_toNat] at hChar
  · intro hMem
    apply List.mem_flatMap.mpr
    refine ⟨c, hMem, ?_⟩
    rw [Header.encodeChar_ascii hAscii]
    exact List.mem_singleton_self _

namespace Relay

/- A command is one line if its text has no breaks. -/
theorem isCommandLine_commandLine_iff
    {text : String} :
    (commandLine text).IsCommandLine ↔ Text.IsUnbroken text := by
  have hBreaks :
      Text.IsUnbroken text ↔
        cr ∉ Utf8.encode text ∧ lf ∉ Utf8.encode text :=
    and_congr
      (not_congr (Utf8.mem_encode_iff (c := '\r')
        (by decide)).symm)
      (not_congr (Utf8.mem_encode_iff (c := '\n')
        (by decide)).symm)
  rw [hBreaks]
  constructor
  · rintro ⟨line, hLine, hNone⟩
    rwa [List.append_cancel_right hLine]
  · intro hNone
    exact ⟨_, rfl, hNone⟩

namespace Errand

------------------------------------------------------------
-- Texts
------------------------------------------------------------

/- The texts of the commands before the message data. -/
def texts
    (errand : Errand)
    (fallback : Bool) : List String :=
  ("EHLO " ++ errand.helo) ::
    (if fallback then ["HELO " ++ errand.helo] else []) ++
    ("MAIL FROM:<" ++ errand.sender ++ ">") ::
    errand.recipients.map
      (fun address => "RCPT TO:<" ++ address ++ ">") ++
    ["DATA"]

theorem flatMap_before
    (errand : Errand)
    (fallback : Bool) :
    (errand.before fallback).flatMap Move.items =
      (errand.texts fallback).map commandLine := by
  have hRecipients :
      (errand.recipients.map recipient).flatMap Move.items =
        (errand.recipients.map fun address =>
          "RCPT TO:<" ++ address ++ ">").map commandLine := by
    rw [List.flatMap_map, List.map_map, List.map_eq_flatMap]
    rfl
  unfold before greetings texts
  simp only [List.flatMap_append, List.flatMap_cons,
    hRecipients]
  cases fallback
  · simp [greeting, extendedHelo, mailFrom, dataCommand,
      Move.requiring]
  · simp [greeting, extendedHelo, plainHelo, mailFrom,
      dataCommand, Move.requiring]

/- Neither a name nor an address has breaks. -/
structure IsUnbroken
    (errand : Errand) : Prop where
  helo : Text.IsUnbroken errand.helo
  sender : Text.IsUnbroken errand.sender
  recipients :
    ∀ address ∈ errand.recipients, Text.IsUnbroken address

theorem forall_texts_iff
    (errand : Errand)
    (fallback : Bool) :
    (∀ text ∈ errand.texts fallback, Text.IsUnbroken text) ↔
      errand.IsUnbroken := by
  have hParts :
      (∀ text ∈ errand.texts fallback, Text.IsUnbroken text) ↔
        Text.IsUnbroken errand.helo ∧
          Text.IsUnbroken errand.sender ∧
          ∀ address ∈ errand.recipients,
            Text.IsUnbroken address := by
    have hEhlo : Text.IsUnbroken "EHLO " := by decide
    have hHelo : Text.IsUnbroken "HELO " := by decide
    have hMail : Text.IsUnbroken "MAIL FROM:<" := by decide
    have hRcpt : Text.IsUnbroken "RCPT TO:<" := by decide
    have hEnd : Text.IsUnbroken ">" := by decide
    have hData : Text.IsUnbroken "DATA" := by decide
    cases fallback
    · simp only [texts, List.forall_mem_append,
        List.forall_mem_cons, List.forall_mem_map,
        Text.isUnbroken_append, hEhlo, hMail, hRcpt, hEnd,
        hData]
      simp
    · simp only [texts, if_true, List.forall_mem_append,
        List.forall_mem_cons, List.forall_mem_map,
        Text.isUnbroken_append, hEhlo, hHelo, hMail, hRcpt,
        hEnd, hData]
      simp +contextual
  rw [hParts]
  exact ⟨fun ⟨hHelo, hSender, hAll⟩ => ⟨hHelo, hSender, hAll⟩,
    fun ⟨hHelo, hSender, hAll⟩ => ⟨hHelo, hSender, hAll⟩⟩

------------------------------------------------------------
-- Commands
------------------------------------------------------------

/- What is written before the message data. -/
def commands
    (errand : Errand)
    {σ : Type}
    (peer : Peer σ)
    (stream : σ) : List Bytes :=
  let transfers := errand.transfers peer stream
  let fallback := fallsBack (replies (received transfers))
  (written transfers).take (errand.texts fallback).length

variable {σ : Type}

theorem length_carried_le
    (transfers : List Transfer) :
    (carried transfers).length ≤ (written transfers).length := by
  induction transfers with
  | nil => exact Nat.le_refl _
  | cons transfer rest ih =>
      cases transfer with
      | got result => exact ih
      | wrote item result =>
          cases result with
          | error fault => exact Nat.le_succ_of_le ih
          | ok done => exact Nat.succ_le_succ ih

/- These are commands of the errand, in their order. -/
theorem prefix_commands
    (errand : Errand)
    (peer : Peer σ)
    (stream : σ) :
    errand.commands peer stream
      <+: (errand.texts (fallsBack (replies (received
        (errand.transfers peer stream))))).map commandLine := by
  have hOrdered :
      written (errand.transfers peer stream)
        <+: (errand.moves (fallsBack (replies (received
          (errand.transfers peer stream))))).flatMap
            Move.items :=
    (isKept_of_ended (errand.ended_run peer stream).1).ordered
      _ (List.prefix_refl _)
  rw [moves, List.flatMap_append, flatMap_before] at hOrdered
  unfold commands
  dsimp only
  generalize errand.texts (fallsBack (replies (received
    (errand.transfers peer stream)))) = texts at hOrdered ⊢
  have hTake := List.IsPrefix.take hOrdered texts.length
  rwa [List.take_left' (List.length_map commandLine)] at hTake

/- If the message was handed over, these are all of them. -/
theorem commands_of_ok
    {errand : Errand}
    {peer : Peer σ}
    {stream : σ}
    (hOk : (errand.run peer stream).1 = .ok ()) :
    errand.commands peer stream =
      (errand.texts (fallsBack (replies (received
        (errand.transfers peer stream))))).map commandLine := by
  apply (errand.prefix_commands peer stream).eq_of_length_le
  have hTraced :
      (errand.run peer.traced (stream, [])).1 = .ok () := by
    have hSame := run_traced peer stream errand.helo
      errand.sender errand.recipients errand.data
    exact (congrArg Prod.fst hSame).symm.trans hOk
  have hAll :=
    ((errand.ended_run peer stream).2.mp hTraced).1.length_le
  have hWritten :=
    length_carried_le (errand.transfers peer stream)
  rw [List.flatMap_append, flatMap_before, List.length_append,
    List.length_map] at hAll
  unfold commands
  dsimp only
  rw [List.length_map, List.length_take]
  omega

end Errand

end Relay

------------------------------------------------------------
-- Transactions
------------------------------------------------------------

namespace Nexthop

open Relay

/- The errand on which a transaction sends a client. -/
def errand
    (t : Transaction)
    (helo : String)
    (data : Bytes) : Errand where
  helo := helo
  sender := (withRecipients t).envelope.sender.getD ""
  recipients := (withRecipients t).envelope.recipients
  data := data

/- Delivering to a relay is running this errand. -/
theorem deliver_relay
    {host : String}
    {port : Nat}
    {t : Transaction}
    {w : World}
    {data : Bytes}
    (hRead : w.files.read t.envelope.messageFile = .ok data)
    {script : List Bytes}
    (hRelay :
      w.network.relays.lookup (host, port) = some script) :
    let outcome :=
      (errand t w.machine data).run
        ⟨Scripted.transport, render (.relay host port)⟩
        (Scripted.connect script)
    (deliver (.relay host port) t w).1.1 = outcome.1 ∧
      (deliver (.relay host port) t w).2.network.transcripts =
        outcome.2.stream.transcript ::
          w.network.transcripts := by
  have hFile :
      (withRecipients t).envelope.messageFile =
        t.envelope.messageFile := by
    rcases exists_withRecipients_eq t with ⟨recipients, hEq⟩
    rw [hEq]
  rw [← hFile] at hRead
  simp only [deliver, relayTo, Run.bind_apply, Run.get_apply,
    hRead, hRelay, talk, Run.pure_apply]
  exact ⟨rfl, rfl⟩

/-
  Where a transaction has its addresses from. The sender is
  that of a message, or it comes from elsewhere and has no
  breaks. The recipients are those of a message that may be
  another one.
-/
structure IsAddressed
    (t : Transaction)
    (first last : Message) : Prop where
  sender :
    t.envelope.sender = first.sender ∨
      (first.sender = none ∧
        ∀ address ∈ t.envelope.sender,
          Text.IsUnbroken address)
  recipients :
    (withRecipients t).envelope.recipients = last.recipients

/- The pipe engine has all addresses from the message. -/
theorem isAddressed_address
    (t : Transaction)
    (message : Message) :
    IsAddressed (Pipe.address t message) message message := by
  refine ⟨Or.inl rfl, ?_⟩
  unfold withRecipients
  split
  · rfl
  · rfl

/- A transaction without recipients has those of its message. -/
theorem isAddressed_of_isEmpty
    {t : Transaction}
    (hNone : t.envelope.recipients.isEmpty = true)
    {first last : Message}
    (hSender : t.envelope.sender = first.sender)
    (hMessage : t.message = some last) :
    IsAddressed t first last := by
  refine ⟨Or.inl hSender, ?_⟩
  rw [withRecipients, if_pos hNone]
  dsimp only
  rw [hMessage]
  rfl

variable {first last : Message}

/-
  There are no breaks in an errand if there are none in the
  name of the client, and if the addresses are the same when
  the breaks in the headers are replaced.
-/
theorem isUnbroken_errand_iff
    {t : Transaction}
    (hAddressed : IsAddressed t first last)
    (helo : String)
    (data : Bytes) :
    (errand t helo data).IsUnbroken ↔
      Text.IsUnbroken helo ∧
        first.joined.sender = first.sender ∧
        last.joined.recipients = last.recipients := by
  have hSender :
      Text.IsUnbroken (errand t helo data).sender ↔
        first.joined.sender = first.sender := by
    have hKept :
        (withRecipients t).envelope.sender =
          t.envelope.sender := by
      rcases exists_withRecipients_eq t with ⟨recipients, hEq⟩
      rw [hEq]
    have hEmpty : Text.IsUnbroken "" := by decide
    rw [first.sender_joined_eq_iff, errand, hKept]
    rcases hAddressed.sender with hSame | ⟨hNone, hElsewhere⟩
    · rw [hSame]
      cases first.sender with
      | none => exact iff_of_true hEmpty (by simp)
      | some address => simp
    · rw [hNone]
      cases hSome : t.envelope.sender with
      | none => exact iff_of_true hEmpty (by simp)
      | some address => simpa using hElsewhere address hSome
  have hRecipients :
      (∀ address ∈ (errand t helo data).recipients,
          Text.IsUnbroken address) ↔
        last.joined.recipients = last.recipients := by
    rw [last.recipients_joined_eq_iff, errand,
      hAddressed.recipients]
  constructor
  · rintro ⟨hHelo, hFirst, hLast⟩
    exact ⟨hHelo, hSender.mp hFirst, hRecipients.mp hLast⟩
  · rintro ⟨hHelo, hFirst, hLast⟩
    exact ⟨hHelo, hSender.mpr hFirst, hRecipients.mpr hLast⟩

/-
  If the client has a name without breaks, and reading the
  addresses from the headers with the breaks replaced makes no
  difference, each command before the message data is one
  line, however the relay behaves. If the message is handed
  over it is so only then. Delivering to a relay is running
  the errand that these commands are those of.
-/
theorem areCommandLines_iff
    {t : Transaction}
    (hAddressed : IsAddressed t first last)
    (helo : String)
    (data : Bytes)
    {σ : Type}
    (peer : Peer σ)
    (stream : σ) :
    (Text.IsUnbroken helo →
        first.joined.sender = first.sender →
        last.joined.recipients = last.recipients →
        ∀ item ∈ (errand t helo data).commands peer stream,
          item.IsCommandLine) ∧
      (((errand t helo data).run peer stream).1 = .ok () →
        (∀ item ∈ (errand t helo data).commands peer stream,
          item.IsCommandLine) →
        Text.IsUnbroken helo ∧
          first.joined.sender = first.sender ∧
          last.joined.recipients = last.recipients) ∧
      ∀ (host : String) (port : Nat) (w : World)
          (script : List Bytes),
        w.files.read t.envelope.messageFile = .ok data →
        w.network.relays.lookup (host, port) = some script →
        let outcome :=
          (errand t w.machine data).run
            ⟨Scripted.transport, render (.relay host port)⟩
            (Scripted.connect script)
        (deliver (.relay host port) t w).1.1 = outcome.1 ∧
          (deliver (.relay host port) t w).2.network.transcripts =
            outcome.2.stream.transcript ::
              w.network.transcripts := by
  have hUnbroken := isUnbroken_errand_iff hAddressed helo data
  have hTexts := (errand t helo data).forall_texts_iff
  have hLines :
      ∀ texts : List String,
        (∀ item ∈ texts.map commandLine, item.IsCommandLine) ↔
          ∀ text ∈ texts, Text.IsUnbroken text := by
    intro texts
    simp only [List.forall_mem_map,
      isCommandLine_commandLine_iff]
  refine ⟨?_, ?_, fun host port w script hRead hRelay =>
    deliver_relay hRead hRelay⟩
  · intro hHelo hSender hRecipients item hItem
    apply (hLines _).mpr ((hTexts _).mpr
      (hUnbroken.mpr ⟨hHelo, hSender, hRecipients⟩))
    exact ((errand t helo data).prefix_commands peer
      stream).subset hItem
  · intro hOk hItems
    rw [Errand.commands_of_ok hOk, hLines, hTexts] at hItems
    exact hUnbroken.mp hItems

/- A message for the recipients in a field. -/
def mailTo
    (value : String) : Bytes :=
  Utf8.encode
    ("From: <a@x>\r\nTo: " ++ value ++ "\r\n\r\nbody\r\n")

/- What it is read as. -/
def messageTo
    (value : String) : Message where
  headers := [
    ⟨"From", "<a@x>", some (Utf8.encode "From: <a@x>")⟩,
    ⟨"To", value, some (Utf8.encode ("To: " ++ value))⟩
  ]
  bodyOffset := 21 + value.length
  crlf := true

/- The errand on which the pipe engine sends a client. -/
def errandTo
    (value : String) : Errand :=
  errand (Pipe.address { id := 0 } (messageTo value)) "h"
    (mailTo value)

/- A relay that accepts a message with one recipient. -/
def acceptingRelay : List Bytes :=
  [ Utf8.encode "220 hi\r\n", Utf8.encode "250 ok\r\n",
    Utf8.encode "250 ok\r\n", Utf8.encode "250 ok\r\n",
    Utf8.encode "354 go\r\n", Utf8.encode "250 ok\r\n",
    Utf8.encode "221 bye\r\n" ]

/- The client's side of the connection to it. -/
def accepting : Peer Scripted :=
  ⟨Scripted.transport, "relay:25"⟩

/- A transaction with a sender and no recipients. -/
def unaddressed
    (value : String) : Transaction where
  id := 0
  envelope := {
    sender := some "a@x"
    message := some (messageTo value) }

/-
  A line break in front of an address does no harm. That is so
  in the pipe engine, and where a message is delivered without
  any recipients in its envelope.
-/
theorem areCommandLines_foldedName :
    let value := "\"b\"\r\n <b@x>"
    Message.parse (mailTo value) = .ok (messageTo value) ∧
      ((errandTo value).run accepting
          (Scripted.connect acceptingRelay)).1.toOption =
        some () ∧
      (∀ item ∈ (errandTo value).commands accepting
          (Scripted.connect acceptingRelay),
        item.IsCommandLine) ∧
      ∀ item ∈ (errand (unaddressed value) "h"
          (mailTo value)).commands accepting
          (Scripted.connect acceptingRelay),
        item.IsCommandLine := by
  intro value
  have hUnaddressed :
      IsAddressed (unaddressed value) (messageTo value)
        (messageTo value) :=
    isAddressed_of_isEmpty rfl (by decide) rfl
  refine ⟨by decide +kernel, by decide +kernel, ?_, ?_⟩
  · apply (areCommandLines_iff (isAddressed_address _ _)
      _ _ _ _).1
    · decide
    · decide
    · decide
  · apply (areCommandLines_iff hUnaddressed _ _ _ _).1
    · decide
    · decide
    · decide

/-
  A line break in an address is written to the relay, which
  gets two lines for one command.
-/
theorem not_areCommandLines_foldedAddress :
    let value := "<b@x\r\n y>"
    let w : World := {
      files := { directories := ["/q"] }
      network := {
        relays := [(("relay", 25), acceptingRelay)] }
      machine := "h" }
    Message.parse (mailTo value) = .ok (messageTo value) ∧
      (messageTo value).recipients = ["b@x\r\n y"] ∧
      ((errandTo value).run accepting
          (Scripted.connect acceptingRelay)).1.toOption =
        some () ∧
      ¬ (∀ item ∈ (errandTo value).commands accepting
          (Scripted.connect acceptingRelay),
        item.IsCommandLine) ∧
      (Pipe.run
          { global := {
              queueDir := "/q"
              nexthop := some "relay" } }
          { modules := [], policy := Pipe.policy }
          ⟨mailTo value, none⟩ w).2.network.transcripts =
        [Utf8.encode ("EHLO h\r\nMAIL FROM:<a@x>\r\n" ++
            "RCPT TO:<b@x\r\n y>\r\nDATA\r\n") ++
          mailTo value ++ Utf8.encode ".\r\nQUIT\r\n"] := by
  refine ⟨by decide +kernel, by decide, by decide +kernel, ?_,
    by decide +kernel⟩
  intro hLines
  have hWritten :
      commandLine "RCPT TO:<b@x\r\n y>" ∈
        (errandTo "<b@x\r\n y>").commands accepting
          (Scripted.connect acceptingRelay) := by
    decide +kernel
  exact absurd
    (isCommandLine_commandLine_iff.mp (hLines _ hWritten))
    (by decide)

end Nexthop

end MailFilter
