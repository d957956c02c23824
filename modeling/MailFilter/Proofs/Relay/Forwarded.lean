import MailFilter.Proofs.Relay.Safety
import MailFilter.Proofs.Smtp.Arguments
import MailFilter.Proofs.Text.Utf8

/-
  What becomes of an address that a client named when it is
  named to a relay.

  The client is read as having named a mailbox. The relay is
  told it between angle brackets, whether the client had put
  it there or not, and reads it up to the first closing one.
  So the address is the same exactly if no closing bracket
  is in it. That is so whenever the client used brackets, and
  for what the relay has read.

  Key definitions include:
    * `Smtp.enclosed`
    * `Smtp.Command.IsReadAfter`
    * `Relay.Move.IsReadAs`

  Main statements:
    * `Smtp.Command.ofBytes_commandLine`
    * `Smtp.mailbox_enclosed_iff`
    * `Relay.mailbox_forwarded_iff`
-/

namespace MailFilter

open Bytes

------------------------------------------------------------
-- Reading What Was Written
------------------------------------------------------------

/- The end of the line can be written with the text. -/
theorem Relay.commandLine_eq_encode
    (text : String) :
    commandLine text = Utf8.encode (text ++ "\r\n") := by
  have hEnd : crlf = Utf8.encode "\r\n" := by decide
  rw [commandLine, hEnd]
  simp only [Utf8.encode, Utf8.encodeChars,
    String.toList_append, List.flatMap_append]

namespace Smtp

------------------------------------------------------------
-- Addresses Between Brackets
------------------------------------------------------------

/- An address between angle brackets. -/
def enclosed
    (address : String) : String :=
  "<" ++ address ++ ">"

theorem toList_enclosed
    (address : String) :
    (enclosed address).toList =
      '<' :: (address.toList ++ ['>']) := by
  simp [enclosed]

/- There is no blank before or after the brackets. -/
theorem isTrimmed_enclosed
    (address : String) :
    Text.IsTrimmed (enclosed address) := by
  constructor
  · intro c hFirst
    rw [toList_enclosed] at hFirst
    cases hFirst
    decide
  · intro c hLast
    rw [toList_enclosed, ← List.cons_append,
      List.getLast?_concat] at hLast
    cases hLast
    decide

/- The mailbox that stands after an opening bracket. -/
theorem mailbox_of_bracket
    {argument : String}
    {rest : List Char}
    (hBracket : Text.trimChars argument.toList = '<' :: rest) :
    mailbox argument =
      String.ofList
          (Text.trimChars (rest.takeWhile (· != '>'))) := by
  rw [mailbox, mailboxChars, hBracket]
  rfl

/- It ends before the first closing bracket. -/
theorem not_mem_mailbox_of_bracket
    {argument : String}
    {rest : List Char}
    (hBracket : Text.trimChars argument.toList = '<' :: rest) :
    '>' ∉ (mailbox argument).toList := by
  intro hMem
  rw [mailbox_of_bracket hBracket, String.toList_ofList]
    at hMem
  have hTaken := List.mem_takeWhile_imp
    (Text.trimChars_subset _ hMem)
  cases hTaken

theorem trimChars_enclosed
    (address : String) :
    Text.trimChars (enclosed address).toList =
      '<' :: (address.toList ++ ['>']) := by
  rw [(isTrimmed_enclosed address).trimChars_eq,
    toList_enclosed]

/- What is between the brackets counts up to a closing one. -/
theorem mailbox_enclosed
    (address : String) :
    mailbox (enclosed address) =
      String.ofList (Text.trimChars
          (address.toList.takeWhile (· != '>'))) := by
  have hUpTo :
      (address.toList ++ ['>']).takeWhile (· != '>') =
        address.toList.takeWhile (· != '>') := by
    rw [List.takeWhile_append]
    split
    · rename_i hWhole
      rw [(List.takeWhile_prefix _).eq_of_length hWhole]
      exact List.append_nil _
    · rfl
  rw [mailbox_of_bracket (trimChars_enclosed address), hUpTo]

/- So it is the address if none is in there. -/
theorem mailbox_enclosed_iff
    {address : String}
    (hTrimmed : Text.IsTrimmed address) :
    mailbox (enclosed address) = address ↔
      '>' ∉ address.toList := by
  constructor
  · intro hSame hMem
    rw [← hSame] at hMem
    exact not_mem_mailbox_of_bracket
      (trimChars_enclosed address) hMem
  · intro hNone
    rw [mailbox_enclosed, Text.takeWhile_of_not_mem hNone,
      hTrimmed.trimChars_eq, String.ofList_toList]

namespace Command

------------------------------------------------------------
-- Reading Commands
------------------------------------------------------------

/- A line that starts with the word makes such a command. -/
def IsReadAfter
    (make : String → Command)
    (word : String) : Prop :=
  ∀ rest,
    readers.findSome? (· (word.toList ++ rest)) =
      some (make (argument rest))

theorem isReadAfter_mailFrom :
    IsReadAfter mailFrom "MAIL FROM:" :=
  fun _ => rfl

theorem isReadAfter_rcptTo :
    IsReadAfter rcptTo "RCPT TO:" :=
  fun _ => rfl

/- The argument is the address with its brackets. -/
theorem argument_enclosed
    (address : String) :
    argument (enclosed address).toList = enclosed address := by
  rw [argument, (isTrimmed_enclosed address).trimChars_eq,
    String.ofList_toList]

/- A command with an address is read as it was written. -/
theorem ofBytes_commandLine
    {make : String → Command}
    {word : String}
    (hWord : IsReadAfter make word)
    (address : String) :
    ofBytes (Relay.commandLine (word ++ enclosed address)) =
      make (enclosed address) := by
  have hLast :
      ∀ c ∈ (word ++ enclosed address).toList.getLast?,
        (c == '\r' || c == '\n') = false := by
    intro c hLast
    rw [String.toList_append, toList_enclosed,
      ← List.cons_append, ← List.append_assoc,
      List.getLast?_concat] at hLast
    cases hLast
    rfl
  have hEnd :
      dropLineEnd ((word ++ enclosed address).toList ++
          "\r\n".toList) =
        word.toList ++ (enclosed address).toList := by
    rw [dropLineEnd_append hLast, String.toList_append]
    exact List.append_nil _
  rw [Relay.commandLine_eq_encode, ofBytes, Utf8.decode?_encode]
  dsimp only
  rw [ofLine, String.toList_append, ofChars]
  rw [hEnd, hWord, argument_enclosed]
  rfl

end Command

end Smtp

namespace Relay

open Smtp

------------------------------------------------------------
-- Addresses That Are Forwarded
------------------------------------------------------------

/- One line is sent, and that is read as the command. -/
def Move.IsReadAs
    (move : Move)
    (command : Command) : Prop :=
  ∃ sent, move.items = [sent] ∧ Command.ofBytes sent = command

theorem Errand.isReadAs_mailFrom
    (errand : Errand) :
    errand.mailFrom.IsReadAs
      (.mailFrom (enclosed errand.sender)) := by
  refine ⟨_, rfl, ?_⟩
  have hText :
      "MAIL FROM:<" ++ errand.sender ++ ">" =
        "MAIL FROM:" ++ enclosed errand.sender := by
    simp [enclosed, ← String.append_assoc]
  rw [hText]
  exact Command.ofBytes_commandLine
    Command.isReadAfter_mailFrom errand.sender

theorem Errand.isReadAs_recipient
    (address : String) :
    (Errand.recipient address).IsReadAs
      (.rcptTo (enclosed address)) := by
  refine ⟨_, rfl, ?_⟩
  have hText :
      "RCPT TO:<" ++ address ++ ">" =
        "RCPT TO:" ++ enclosed address := by
    simp [enclosed, ← String.append_assoc]
  rw [hText]
  exact Command.ofBytes_commandLine
    Command.isReadAfter_rcptTo address

/- One line comes in, one line goes out. -/
theorem isLine_commandLine_mailbox
    {line : Bytes}
    (hLine : IsLine line ∨ lf ∉ line)
    {argument : String}
    (hRecognized : (Command.ofBytes line).IsRecognized)
    (hArgument :
      (Command.ofBytes line).argument? = some argument)
    {word : String}
    (hWord : Text.IsOneLine word) :
    IsLine (commandLine (word ++ mailbox argument ++ ">")) := by
  have hBox : Text.IsOneLine (mailbox argument) :=
    isOneLine_mailbox (Command.isOneLine_of_argument? hLine
      hRecognized hArgument)
  apply isLine_encode _ (Or.inr rfl)
  rw [Text.isOneLine_append, Text.isOneLine_append]
  exact ⟨⟨hWord, hBox⟩, by decide⟩

/-
  Whatever line a client named an address with, the relay is
  told of it with one command of the same kind. The mailbox
  in there is the same exactly if it has no closing bracket,
  and it has none if the client put it between brackets.
-/
theorem mailbox_forwarded_iff
    (line : Bytes) :
    (∀ argument, Command.ofBytes line = .mailFrom argument →
      ∀ errand : Errand, errand.sender = mailbox argument →
        ∃ again,
          errand.mailFrom.IsReadAs (.mailFrom again) ∧
            (mailbox again = mailbox argument ↔
                '>' ∉ (mailbox argument).toList) ∧
            (IsLine line ∨ lf ∉ line →
                ∀ sent ∈ errand.mailFrom.items, IsLine sent)) ∧
      (∀ argument, Command.ofBytes line = .rcptTo argument →
          ∃ again,
            (Errand.recipient (mailbox argument)).IsReadAs
                (.rcptTo again) ∧
              (mailbox again = mailbox argument ↔
                  '>' ∉ (mailbox argument).toList) ∧
              (IsLine line ∨ lf ∉ line →
                  ∀ sent ∈ (Errand.recipient
                      (mailbox argument)).items,
                    IsLine sent)) ∧
      ∀ argument rest,
          Text.trimChars argument.toList = '<' :: rest →
          '>' ∉ (mailbox argument).toList := by
  refine ⟨?_, ?_, fun _ _ => not_mem_mailbox_of_bracket⟩
  · intro argument hCommand errand hSender
    refine ⟨_, errand.isReadAs_mailFrom, ?_, ?_⟩
    · rw [hSender]
      exact mailbox_enclosed_iff (isTrimmed_mailbox argument)
    · intro hLine sent hSent
      rw [List.mem_singleton.mp hSent, hSender]
      exact isLine_commandLine_mailbox hLine
        (hCommand ▸ trivial) (hCommand ▸ rfl) (by decide)
  · intro argument hCommand
    refine ⟨_, Errand.isReadAs_recipient _, ?_, ?_⟩
    · exact mailbox_enclosed_iff (isTrimmed_mailbox argument)
    · intro hLine sent hSent
      rw [List.mem_singleton.mp hSent]
      exact isLine_commandLine_mailbox hLine
        (hCommand ▸ trivial) (hCommand ▸ rfl) (by decide)

/- A parameter after the address does not go with it. -/
theorem mailbox_forwarded_parameter :
    let line := commandLine "MAIL FROM:<a@x> SIZE=1"
    let errand : Errand := ⟨"here", "a@x", [], []⟩
    Command.ofBytes line = .mailFrom "<a@x> SIZE=1" ∧
      ∃ again,
        errand.mailFrom.IsReadAs (.mailFrom again) ∧
          mailbox again = "a@x" := by
  intro line errand
  have hCommand :
      Command.ofBytes line = .mailFrom "<a@x> SIZE=1" := by
    decide +kernel
  have hSender :
      errand.sender = mailbox "<a@x> SIZE=1" := by
    decide +kernel
  rcases (mailbox_forwarded_iff line).1 _ hCommand errand
      hSender with ⟨again, hRead, hSame, _⟩
  refine ⟨hCommand, again, hRead, ?_⟩
  rw [hSame.mpr (by decide +kernel), ← hSender]

/-
  A word with a closing bracket in it goes on as another
  address, and the bracket alone as none.
-/
theorem mailbox_forwarded_ne :
    Command.ofBytes (commandLine "RCPT TO:b>c@x") =
        .rcptTo "b>c@x" ∧
      mailbox "b>c@x" = "b>c@x" ∧
      (∃ again,
          (Errand.recipient "b>c@x").IsReadAs (.rcptTo again) ∧
            mailbox again = "b") ∧
      Command.ofBytes (commandLine "MAIL FROM:>") =
          .mailFrom ">" ∧
      mailbox ">" = ">" ∧
      ∀ errand : Errand, errand.sender = ">" →
          ∃ again,
            errand.mailFrom.IsReadAs (.mailFrom again) ∧
              mailbox again = "" := by
  refine ⟨by decide +kernel, by decide +kernel,
    ⟨_, Errand.isReadAs_recipient _, by decide +kernel⟩,
    by decide +kernel, by decide +kernel, ?_⟩
  intro errand hSender
  refine ⟨_, errand.isReadAs_mailFrom, ?_⟩
  rw [hSender]
  decide +kernel

end Relay

end MailFilter
