import MailFilter.Proofs.Relay.Forwarded
import MailFilter.Proofs.Smtp.Attributes

/-
  Commands that are read back from their lines.

  A command that was read has an argument without blanks at
  its ends, or an address that is one word, or it is a line
  without its ending that no verb fits. Each of these is read
  as it is from the line that is written for it, and no other
  command is.

  Key definitions include:
    * `Smtp.Command.IsUnread`
    * `Smtp.Command.IsReadable`

  Main statements:
    * `Smtp.Command.isReadable_ofLine`
    * `Smtp.Command.ofLine_render_iff`
    * `Smtp.Command.ofLine_render_ofLine`
-/

namespace MailFilter.Smtp.Command

------------------------------------------------------------
-- What Can Be Read
------------------------------------------------------------

/- A line without its ending that no verb fits. -/
structure IsUnread
    (line : List Char) : Prop where
  ended : dropLineEnd line = line
  unfit : readers.findSome? (· line) = none

/- What is known of the text of a command that was read. -/
def IsReadable : Command → Prop
  | .helo host => Text.IsTrimmed host
  | .ehlo host => Text.IsTrimmed host
  | .xforward address =>
      ∀ word ∈ address,
        word.toList ≠ [] ∧ Text.IsSolid word.toList
  | .mailFrom argument => Text.IsTrimmed argument
  | .rcptTo argument => Text.IsTrimmed argument
  | .invalid line => IsUnread line.toList
  | _ => True

theorem isTrimmed_argument
    (rest : List Char) :
    Text.IsTrimmed (argument rest) :=
  Text.isTrimmed_ofList_trimChars rest

/- An address is one word. -/
theorem isReadable_xforward
    (rest : List Char) :
    (xforward (forwardedAddress? rest)).IsReadable := by
  intro word hWord
  unfold forwardedAddress? at hWord
  split at hWord
  · cases hWord
  · rename_i value hFound
    dsimp only at hWord
    split at hWord
    · cases hWord
    · rename_i hSome
      cases hWord
      rw [String.toList_ofList]
      refine ⟨fun hNil => hSome (by simp [hNil]), ?_⟩
      intro c hMem
      simpa using List.mem_takeWhile_imp hMem

theorem isReadable_of_map
    {rest? : Option (List Char)}
    {make : List Char → Command}
    {command : Command}
    (hCommand : rest?.map make = some command)
    (hMake : ∀ rest, (make rest).IsReadable) :
    command.IsReadable := by
  rcases Option.map_eq_some_iff.mp hCommand with ⟨rest, -, rfl⟩
  exact hMake rest

/- One case for each verb. -/
theorem isReadable_of_mem_readers
    {reader : List Char → Option Command}
    (hReader : reader ∈ readers)
    {line : List Char}
    {command : Command}
    (hRead : reader line = some command) :
    command.IsReadable := by
  simp only [readers, List.mem_cons, List.not_mem_nil,
    or_false] at hReader
  rcases hReader with
    rfl | rfl | rfl | rfl | rfl | rfl | rfl | rfl | rfl
  · exact isReadable_of_map hRead fun _ => trivial
  · exact isReadable_of_map hRead isTrimmed_argument
  · exact isReadable_of_map hRead isTrimmed_argument
  · exact isReadable_of_map hRead isReadable_xforward
  · exact isReadable_of_map hRead isTrimmed_argument
  · exact isReadable_of_map hRead isTrimmed_argument
  · exact isReadable_of_map hRead fun _ => trivial
  · exact isReadable_of_map hRead fun _ => trivial
  · exact isReadable_of_map hRead fun _ => trivial

theorem dropLineEnd_dropLineEnd
    (line : List Char) :
    dropLineEnd (dropLineEnd line) = dropLineEnd line :=
  List.rdropWhile_idempotent _ line

/- Whatever line it was, the command is one of these. -/
theorem isReadable_ofLine
    (line : String) :
    (ofLine line).IsReadable := by
  unfold ofLine ofChars
  dsimp only
  cases hFound : readers.findSome? (· (dropLineEnd line.toList)) with
  | none =>
      rw [Option.getD_none, IsReadable, String.toList_ofList]
      exact ⟨dropLineEnd_dropLineEnd line.toList, hFound⟩
  | some command =>
      rcases List.exists_of_findSome?_eq_some hFound with
        ⟨reader, hReader, hRead⟩
      exact isReadable_of_mem_readers hReader hRead

------------------------------------------------------------
-- Reading What Was Written
------------------------------------------------------------

/- A line that does not end like one is left as it is. -/
theorem dropLineEnd_eq_self
    {line : List Char}
    (hLast :
      ∀ c ∈ line.getLast?, (c == '\r' || c == '\n') = false) :
    dropLineEnd line = line := by
  have hEnd := dropLineEnd_append hLast []
  rw [List.append_nil] at hEnd
  exact hEnd.trans (List.append_nil line)

theorem isReadAfter_helo :
    IsReadAfter helo "HELO " :=
  fun _ => congrArg (fun text => some (helo (String.ofList text)))
    (Text.trimChars_cons_blank rfl _)

theorem isReadAfter_ehlo :
    IsReadAfter ehlo "EHLO " :=
  fun _ => congrArg (fun text => some (ehlo (String.ofList text)))
    (Text.trimChars_cons_blank rfl _)

/- An argument is read as it was written after its verb. -/
theorem ofLine_append
    {make : String → Command}
    {word : String}
    (hWord : IsReadAfter make word)
    (hEnd :
      word.toList.getLast?.any
        (fun c => c == '\r' || c == '\n') = false)
    {text : String}
    (hTrimmed : Text.IsTrimmed text) :
    ofLine (word ++ text) = make text := by
  have hWhole :
      dropLineEnd (word ++ text).toList =
        word.toList ++ text.toList := by
    rw [String.toList_append]
    apply dropLineEnd_eq_self
    intro c hLast
    rw [List.getLast?_append] at hLast
    cases hBack : text.toList.getLast? with
    | none =>
        rw [hBack] at hLast
        have hWordLast : word.toList.getLast? = some c := hLast
        rwa [hWordLast] at hEnd
    | some d =>
        rw [hBack] at hLast
        cases hLast
        exact not_endsLine_of_isBlank (hTrimmed.last c hBack)
  rw [ofLine, ofChars]
  rw [hWhole, hWord, Option.getD_some, argument,
    hTrimmed.trimChars_eq, String.ofList_toList]

/- So is an address that is one word. -/
theorem ofLine_xforward
    {word : String}
    (hSolid : Text.IsSolid word.toList) :
    ofLine ("XFORWARD ADDR=" ++ word) =
      .xforward
        (if word.toList.isEmpty then none else some word) := by
  have hPlain :
      Text.IsSolid "ADDR".toList ∧
        '=' ∉ "ADDR".toList ∧
        Text.IsSolid word.toList :=
    ⟨by decide, by decide, hSolid⟩
  let address := Forwarding.spaced "ADDR" word hPlain
  let line : Forwarding := {
    verb := "XFORWARD"
    attributes := [address]
    ending := []
    sameName_verb := by decide +kernel
    isGap_ending := by decide }
  have hText : line.text = "XFORWARD ADDR=" ++ word := by
    rw [← String.toList_inj, Forwarding.text,
      String.toList_ofList, String.toList_append]
    simp [line, address, Forwarding.restOf, Attribute.text,
      Attribute.word, Forwarding.spaced]
  have hName :
      Text.sameName (String.ofList "ADDR".toList) "ADDR" = true := by
    decide +kernel
  have hFound : address.found? = some word.toList :=
    Attribute.found?_of_isAddress hName
  have hTaken :
      Forwarding.taken? [address] =
        if word.toList.isEmpty then none else some word := by
    simp only [Forwarding.taken?, Forwarding.firstFound?,
      hFound, Option.bind_some, Forwarding.takenOf,
      List.head?_nil, Option.map_none, String.ofList_toList]
  rw [← hText, line.ofLine_text, hTaken]

/-
  A command is read back from the line that is written for it
  exactly if it is one that can be read.
-/
theorem ofLine_render_iff
    {command : Command} :
    ofLine command.render = command ↔ command.IsReadable := by
  constructor
  · intro hSame
    rw [← hSame]
    exact isReadable_ofLine _
  · intro hReadable
    cases command with
    | helo host =>
        exact ofLine_append isReadAfter_helo (by decide) hReadable
    | ehlo host =>
        exact ofLine_append isReadAfter_ehlo (by decide) hReadable
    | xforward address =>
        cases address with
        | none => exact ofLine_xforward (by decide)
        | some word =>
            rcases hReadable word rfl with ⟨hSome, hSolid⟩
            refine (ofLine_xforward hSolid).trans ?_
            rw [if_neg (by simpa using hSome)]
    | mailFrom text =>
        exact ofLine_append isReadAfter_mailFrom (by decide)
          hReadable
    | rcptTo text =>
        exact ofLine_append isReadAfter_rcptTo (by decide)
          hReadable
    | data => decide +kernel
    | rset => decide +kernel
    | noop => decide +kernel
    | quit => decide +kernel
    | invalid line =>
        rw [render, ofLine, ofChars]
        rw [hReadable.ended, hReadable.unfit, Option.getD_none,
          String.ofList_toList]

/-
  Whatever a line is read as, the line that is written for
  that is read as the same, and is a command if the first one
  was.
-/
theorem ofLine_render_ofLine
    (line : String) :
    ofLine (ofLine line).render = ofLine line :=
  ofLine_render_iff.mpr (isReadable_ofLine line)

/- An address is written without the other attributes. -/
example :
    (ofLine "xforward NAME=a  addr=b\r\n").render =
      "XFORWARD ADDR=b" := by
  decide +kernel

end MailFilter.Smtp.Command
