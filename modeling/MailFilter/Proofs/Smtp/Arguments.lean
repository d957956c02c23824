import MailFilter.Proofs.Message.Sound
import MailFilter.Proofs.Smtp.Framing
import MailFilter.Smtp.Command
import MailFilter.Text.Line

/-
  What is known of the texts in a command.

  A command is read from one line, and its texts are parts of
  that line. So none of them has a line feed. A mailbox is a
  part of such a text that was trimmed.

  Key definitions include:
    * `Text.IsTrimmed`
    * `Smtp.IsMailbox`

  Main statements:
    * `Smtp.isLine_or_of_readCommand`
    * `Smtp.Command.isOneLine_of_argument?`
    * `Smtp.isMailbox_mailbox`
    * `Smtp.IsMailbox.isLine`
-/

namespace MailFilter

------------------------------------------------------------
-- Parts Of A Text
------------------------------------------------------------

namespace Text

theorem trimChars_subset
    (text : List Char) :
    trimChars text ⊆ text :=
  List.Subset.trans
    (List.rdropWhile_prefix isBlank _).subset
    (List.dropWhile_suffix isBlank).subset

theorem firstWord_subset
    (text : List Char) :
    firstWord text ⊆ text :=
  List.Subset.trans
    (List.takeWhile_prefix _).subset
    (List.dropWhile_suffix isBlank).subset

/- A text without a mark is the text up to the mark. -/
theorem takeWhile_of_not_mem
    {α : Type}
    [DecidableEq α]
    {mark : α}
    {text : List α}
    (hNone : mark ∉ text) :
    text.takeWhile (· != mark) = text := by
  rw [List.takeWhile_eq_self_iff]
  intro c hMem
  rw [bne_iff_ne]
  rintro rfl
  exact hNone hMem

theorem subset_of_dropPrefix?
    {word text rest : List Char}
    (hRest : dropPrefix? word text = some rest) :
    rest ⊆ text := by
  induction word generalizing text with
  | nil =>
      cases hRest
      exact List.Subset.refl _
  | cons w word ih =>
      cases text with
      | nil => cases hRest
      | cons c text =>
          unfold dropPrefix? at hRest
          split at hRest
          · exact List.subset_cons_of_subset c (ih hRest)
          · cases hRest

theorem subset_of_dropThrough?
    {word text rest : List Char}
    (hRest : dropThrough? word text = some rest) :
    rest ⊆ text := by
  induction text with
  | nil => exact subset_of_dropPrefix? hRest
  | cons c text ih =>
      unfold dropThrough? at hRest
      split at hRest
      · rename_i after hAfter
        cases hRest
        exact subset_of_dropPrefix? hAfter
      · exact List.subset_cons_of_subset c (ih hRest)

------------------------------------------------------------
-- Trimmed Texts
------------------------------------------------------------

theorem isTrimmed_ofList_trimChars
    (text : List Char) :
    IsTrimmed (String.ofList (trimChars text)) := by
  constructor
  · intro c hFirst
    rw [String.toList_ofList] at hFirst
    exact isBlank_of_head?_trimChars hFirst
  · intro c hLast
    rw [String.toList_ofList] at hLast
    exact isBlank_of_getLast?_trimChars hLast

end Text

namespace Smtp

open Bytes

------------------------------------------------------------
-- Lines That Are Read
------------------------------------------------------------

/- A line feed can only be the end of a line that is read. -/
theorem isLine_or_of_readLine
    {limit : Nat}
    {input rest : Inbound}
    {line : Bytes}
    (hRead : readLine limit input = .line line rest) :
    IsLine line ∨ lf ∉ line := by
  rcases input with ⟨data, ending⟩
  induction data using lineInduction with
  | tail data hNone =>
      rcases readLine_of_lf_not_mem limit hNone ending with
        ⟨_, hOther⟩ | hOther | hOther
      · rw [hOther] at hRead
        cases hRead
      · rw [hOther] at hRead
        cases hRead
      · rw [hOther] at hRead
        cases hRead
        exact Or.inr hNone
  | line text more hLine _ =>
      by_cases hFits : text.length ≤ limit
      · rw [readLine_line hLine hFits] at hRead
        cases hRead
        exact Or.inl hLine
      · have hLong := Nat.lt_of_not_le hFits
        rw [(readLine_tooLong hLine hLong more ending).1]
          at hRead
        cases hRead

theorem isLine_or_of_readCommand
    {input rest : Inbound}
    {line : Bytes}
    (hRead : readCommand input = .line line rest) :
    IsLine line ∨ lf ∉ line := by
  unfold readCommand at hRead
  split at hRead
  · rename_i hLine
    cases hRead
    exact isLine_or_of_readLine hLine
  · cases hRead
  · cases hRead

------------------------------------------------------------
-- Texts Of A Command
------------------------------------------------------------

namespace Command

theorem dropLineEnd_subset
    (line : List Char) :
    dropLineEnd line ⊆ line :=
  (List.rdropWhile_prefix _ line).subset

theorem dropLineEnd_concat_newline
    (line : List Char) :
    dropLineEnd (line ++ ['\n']) = dropLineEnd line := by
  simp [dropLineEnd]

/- What ends a line is blank. -/
theorem not_endsLine_of_isBlank
    {c : Char}
    (hSolid : Text.isBlank c = false) :
    (c == '\r' || c == '\n') = false := by
  rw [Bool.eq_false_iff, ne_eq, Bool.or_eq_true, beq_iff_eq,
    beq_iff_eq]
  rintro (rfl | rfl)
  · exact absurd hSolid (by decide)
  · exact absurd hSolid (by decide)

/- Only the end of a line is dropped. -/
theorem dropLineEnd_append
    {front : List Char}
    (hLast :
      ∀ c ∈ front.getLast?, (c == '\r' || c == '\n') = false)
    (ending : List Char) :
    dropLineEnd (front ++ ending) = front ++ dropLineEnd ending := by
  have hFront :
      (front.reverse.dropWhile fun c => c == '\r' || c == '\n') =
        front.reverse := by
    cases hBack : front.reverse with
    | nil => rfl
    | cons c back =>
        rw [List.dropWhile_cons_of_neg]
        rw [Bool.not_eq_true]
        apply hLast
        rw [List.getLast?_eq_head?_reverse, hBack]
        rfl
  unfold dropLineEnd
  rw [List.reverse_append, List.dropWhile_append, hFront]
  split
  · rename_i hEmpty
    rw [List.isEmpty_iff.mp hEmpty]
    simp
  · simp

/- Once its end is dropped, a line has no line feed. -/
theorem newline_not_mem_dropLineEnd
    {line : Bytes}
    (hLine : IsLine line ∨ lf ∉ line) :
    '\n' ∉ dropLineEnd (Utf8.decodeChars line) := by
  rcases hLine with ⟨front, rfl, hNone⟩ | hNone
  · rw [Utf8.decodeChars_append_ascii front (by decide)]
    change '\n' ∉ dropLineEnd (_ ++ ['\n'])
    rw [dropLineEnd_concat_newline]
    exact fun hMem => Utf8.newline_not_mem_decodeChars hNone
      (dropLineEnd_subset _ hMem)
  · exact fun hMem => Utf8.newline_not_mem_decodeChars hNone
      (dropLineEnd_subset _ hMem)

theorem subset_of_afterVerb?
    {verb : String}
    {line rest : List Char}
    (hRest : afterVerb? verb line = some rest) :
    rest ⊆ line := by
  unfold afterVerb? at hRest
  split at hRest
  · cases hRest
    exact List.nil_subset line
  · rename_i c more hDrop
    split at hRest
    · cases hRest
      exact Text.subset_of_dropPrefix? hDrop
    · cases hRest
  · cases hRest

/- All texts of the command are made of the characters. -/
def IsMadeOf
    (command : Command)
    (line : List Char) : Prop :=
  ∀ text ∈ command.argument?, text.toList ⊆ line

theorem isMadeOf_of_eq_none
    {command : Command}
    (hNone : command.argument? = none)
    (line : List Char) :
    command.IsMadeOf line := by
  intro text hText
  rw [hNone] at hText
  cases hText

/- A command with the argument that follows a verb. -/
theorem isMadeOf_argument
    {make : String → Command}
    (hMake : ∀ text, (make text).argument? = some text)
    (rest : List Char) :
    (make (argument rest)).IsMadeOf rest := by
  intro text hText
  rw [hMake] at hText
  cases hText
  rw [argument, String.toList_ofList]
  exact Text.trimChars_subset rest

theorem isMadeOf_xforward
    (rest : List Char) :
    (xforward (forwardedAddress? rest)).IsMadeOf rest := by
  intro text hText
  change forwardedAddress? rest = some text at hText
  unfold forwardedAddress? at hText
  split at hText
  · cases hText
  · rename_i value hDrop
    dsimp only at hText
    split at hText
    · cases hText
    · cases hText
      rw [String.toList_ofList]
      exact List.Subset.trans (Text.firstWord_subset value)
        (Text.subset_of_dropThrough? hDrop)

/- What is made of the text after a verb. -/
theorem isMadeOf_of_map
    {rest? : Option (List Char)}
    {line : List Char}
    (hRest : ∀ rest, rest? = some rest → rest ⊆ line)
    {make : List Char → Command}
    (hMake : ∀ rest, (make rest).IsMadeOf rest)
    {command : Command}
    (hCommand : rest?.map make = some command) :
    command.IsMadeOf line := by
  rcases Option.map_eq_some_iff.mp hCommand with
    ⟨rest, hSome, rfl⟩
  intro text hText
  exact List.Subset.trans (hMake rest text hText)
    (hRest rest hSome)

/- One case for each verb. -/
theorem isMadeOf_of_mem_readers
    {reader : List Char → Option Command}
    (hReader : reader ∈ readers)
    {line : List Char}
    {command : Command}
    (hRead : reader line = some command) :
    command.IsMadeOf line := by
  have hVerb :
      ∀ verb rest, afterVerb? verb line = some rest →
        rest ⊆ line :=
    fun _ _ => subset_of_afterVerb?
  have hPrefix :
      ∀ word rest, Text.dropPrefix? word line = some rest →
        rest ⊆ line :=
    fun _ _ => Text.subset_of_dropPrefix?
  simp only [readers, List.mem_cons, List.not_mem_nil,
    or_false] at hReader
  rcases hReader with
    rfl | rfl | rfl | rfl | rfl | rfl | rfl | rfl | rfl
  · exact isMadeOf_of_map (hVerb "QUIT")
      (isMadeOf_of_eq_none rfl) hRead
  · exact isMadeOf_of_map (hVerb "HELO")
      (isMadeOf_argument fun _ => rfl) hRead
  · exact isMadeOf_of_map (hVerb "EHLO")
      (isMadeOf_argument fun _ => rfl) hRead
  · exact isMadeOf_of_map (hVerb "XFORWARD")
      isMadeOf_xforward hRead
  · exact isMadeOf_of_map (hPrefix "MAIL FROM:".toList)
      (isMadeOf_argument fun _ => rfl) hRead
  · exact isMadeOf_of_map (hPrefix "RCPT TO:".toList)
      (isMadeOf_argument fun _ => rfl) hRead
  · exact isMadeOf_of_map (hVerb "DATA")
      (isMadeOf_of_eq_none rfl) hRead
  · exact isMadeOf_of_map (hVerb "RSET")
      (isMadeOf_of_eq_none rfl) hRead
  · exact isMadeOf_of_map (hVerb "NOOP")
      (isMadeOf_of_eq_none rfl) hRead

/- A command is made of its line without the line ending. -/
theorem isMadeOf_ofChars
    (line : List Char) :
    (ofChars line).IsMadeOf (dropLineEnd line) := by
  unfold ofChars
  dsimp only
  generalize dropLineEnd line = whole
  cases hFound : readers.findSome? (· whole) with
  | none =>
      intro text hText
      cases hText
      rw [String.toList_ofList]
      exact List.Subset.refl whole
  | some command =>
      rcases List.exists_of_findSome?_eq_some hFound with
        ⟨reader, hReader, hRead⟩
      exact isMadeOf_of_mem_readers hReader hRead

/- No text of a command that is recognized has a line feed. -/
theorem isOneLine_of_argument?
    {line : Bytes}
    (hLine : IsLine line ∨ lf ∉ line)
    (hCommand : (ofBytes line).IsRecognized)
    {text : String}
    (hText : (ofBytes line).argument? = some text) :
    Text.IsOneLine text := by
  unfold ofBytes at hCommand hText
  split at hText
  · rename_i whole hWhole
    rw [← Utf8.decodeLossy_of_decode? hWhole, ofLine,
      Utf8.decodeLossy, String.toList_ofList] at hText
    exact fun hMem => newline_not_mem_dropLineEnd hLine
      (isMadeOf_ofChars _ text hText hMem)
  · rename_i hNone
    rw [hNone] at hCommand
    exact hCommand.elim

end Command

------------------------------------------------------------
-- Mailboxes
------------------------------------------------------------

/- A text that can be used as the mailbox of an envelope. -/
structure IsMailbox
    (box : String) : Prop where
  nonempty : box ≠ ""
  oneLine : Text.IsOneLine box
  trimmed : Text.IsTrimmed box

/- A mailbox is a trimmed part of the argument. -/
theorem exists_mailboxChars
    (argument : List Char) :
    ∃ part,
      mailboxChars argument = Text.trimChars part ∧
        part ⊆ argument := by
  unfold mailboxChars
  split
  · rename_i rest hTrim
    refine ⟨_, rfl, ?_⟩
    have hRest : rest ⊆ argument :=
      List.Subset.trans (List.subset_cons_self '<' rest)
        (hTrim ▸ Text.trimChars_subset argument)
    exact List.Subset.trans
      (List.takeWhile_prefix _).subset hRest
  · exact ⟨_, rfl,
      List.Subset.trans (Text.firstWord_subset _)
        (Text.trimChars_subset argument)⟩

theorem isOneLine_mailbox
    {argument : String}
    (hLine : Text.IsOneLine argument) :
    Text.IsOneLine (mailbox argument) := by
  rcases exists_mailboxChars argument.toList with
    ⟨part, hPart, hSubset⟩
  intro hMem
  rw [mailbox, String.toList_ofList, hPart] at hMem
  exact hLine (hSubset (Text.trimChars_subset part hMem))

theorem isTrimmed_mailbox
    (argument : String) :
    Text.IsTrimmed (mailbox argument) := by
  rcases exists_mailboxChars argument.toList with
    ⟨part, hPart, _⟩
  rw [mailbox, hPart]
  exact Text.isTrimmed_ofList_trimChars part

theorem isMailbox_mailbox
    {argument : String}
    (hLine : Text.IsOneLine argument)
    (hSome : (mailbox argument).isEmpty = false) :
    IsMailbox (mailbox argument) := by
  refine ⟨?_, isOneLine_mailbox hLine, isTrimmed_mailbox argument⟩
  intro hEmpty
  rw [hEmpty] at hSome
  cases hSome

/- A text on one line is written without a line feed. -/
theorem lf_not_mem_encode
    {text : String}
    (hLine : Text.IsOneLine text) :
    lf ∉ Utf8.encode text :=
  fun hMem =>
    hLine (Utf8.mem_of_mem_encode (b := lf) (by decide) hMem)

/- With a line ending it is a line. -/
theorem isLine_encode
    {text : String}
    (hLine : Text.IsOneLine text)
    {ending : Bytes}
    (hEnding : ending.IsBlankLine) :
    IsLine (Utf8.encode text ++ ending) := by
  have hText := lf_not_mem_encode hLine
  rcases hEnding with rfl | rfl
  · exact ⟨Utf8.encode text, rfl, hText⟩
  · refine ⟨Utf8.encode text ++ [cr], ?_, ?_⟩
    · simp
    · rw [List.mem_append, not_or]
      exact ⟨hText, by decide⟩

/- So a mailbox can be put between texts in one line. -/
theorem IsMailbox.isLine
    {box : String}
    (hBox : IsMailbox box)
    {front back : String}
    (hFront : Text.IsOneLine front)
    (hBack : Text.IsOneLine back)
    {ending : Bytes}
    (hEnding : ending.IsBlankLine) :
    IsLine (Utf8.encode (front ++ box ++ back) ++ ending) := by
  apply isLine_encode _ hEnding
  rw [Text.isOneLine_append, Text.isOneLine_append]
  exact ⟨⟨hFront, hBox.oneLine⟩, hBack⟩

end Smtp

end MailFilter
