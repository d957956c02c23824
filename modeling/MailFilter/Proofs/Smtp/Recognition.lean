import MailFilter.Proofs.Smtp.Verbs

/-
  What the recognition of a command does not depend on.

  A command is what its verb makes of the text after it,
  whatever the case of the verb is.

  The end of a line is dropped before the verb is looked for,
  but only from a line that is well-formed. Any other line is
  no command, and its end is kept with its text.

  Key definitions include:
    * `Smtp.Verb.IgnoresCase`
    * `Smtp.IsEnding`

  Main statements:
    * `Smtp.Verb.ofLine_append`
    * `Smtp.Verb.ignoresCase`
    * `Smtp.Command.ofBytes_append_ending`
    * `Smtp.Command.ignoresEnding_iff`
-/

namespace MailFilter

namespace Smtp

open Bytes Text

------------------------------------------------------------
-- The Case Of The Verb
------------------------------------------------------------

namespace Verb

/- Neither does a spelling of a verb end in a blank. -/
theorem isBlank_of_getLast?_word
    {verb : Verb}
    (hVerb : verb ∈ all)
    {word : String}
    (hSame : sameName word verb.text = true) :
    ∀ c ∈ word.toList.getLast?, isBlank c = false := by
  intro c hLast
  have hLower :
      (verb.text.toList.map Char.toLower).getLast? =
        some c.toLower := by
    rw [← map_toLower_of_sameName hSame, List.getLast?_map,
      hLast, Option.map_some]
  rw [List.getLast?_map, Option.map_eq_some_iff] at hLower
  rcases hLower with ⟨d, hEnd, hEqual⟩
  rw [← isBlank_toLower, ← hEqual, isBlank_toLower]
  exact isBlank_of_getLast?_text hVerb hEnd

/- A line without a verb is kept, and one with it is read. -/
theorem ofLine_append
    {verb : Verb}
    (hVerb : verb ∈ all)
    {word : String}
    (hSame : sameName word verb.text = true)
    (rest : String) :
    Command.ofLine (word ++ rest) =
      (verb.after (Command.dropLineEnd rest.toList)).getD
          (.invalid (word ++ String.ofList
            (Command.dropLineEnd rest.toList))) := by
  have hEnd :=
    Command.dropLineEnd_append
      (fun c hLast =>
        Command.not_endsLine_of_isBlank
          (isBlank_of_getLast?_word hVerb hSame c hLast))
      rest.toList
  have hText :
      String.ofList
          (word.toList ++ Command.dropLineEnd rest.toList) =
        word ++ String.ofList
          (Command.dropLineEnd rest.toList) := by
    rw [String.ofList_append, String.ofList_toList]
  rw [Command.ofLine, Command.ofChars, String.toList_append]
  rw [hEnd, findSome?_readers hVerb hSame, hText]

/-
  A line that starts with the verb in some case and is a
  command is the same command with the verb in any other.
-/
def IgnoresCase
    (verb : Verb) : Prop :=
  ∀ (word other : String) (rest : Bytes),
    sameName word verb.text = true →
    sameName other verb.text = true →
    (Command.ofBytes (Utf8.encode word ++ rest)).IsRecognized →
      Command.ofBytes (Utf8.encode other ++ rest) =
        Command.ofBytes (Utf8.encode word ++ rest)

theorem ignoresCase
    {verb : Verb}
    (hVerb : verb ∈ all) :
    verb.IgnoresCase := by
  intro word other rest hWord hOther hCommand
  unfold Command.ofBytes at hCommand ⊢
  rw [Utf8.decode?_encode_append] at hCommand ⊢
  rw [Utf8.decode?_encode_append]
  cases hRead : Utf8.decode? rest with
  | none =>
      -- Such a line is no command.
      rw [hRead] at hCommand
      exact hCommand.elim
  | some text =>
      rw [hRead] at hCommand
      simp only [Option.map_some] at hCommand ⊢
      rw [ofLine_append hVerb hWord] at hCommand ⊢
      rw [ofLine_append hVerb hOther]
      cases hAfter : verb.after (Command.dropLineEnd text.toList) with
      | none =>
          rw [hAfter] at hCommand
          exact hCommand.elim
      | some command => rfl

end Verb

------------------------------------------------------------
-- Endings
------------------------------------------------------------

/- Any number of carriage returns and line feeds. -/
def IsEnding
    (ending : Bytes) : Prop :=
  ∀ b ∈ ending, b = cr ∨ b = lf

instance
    (ending : Bytes) :
    Decidable (IsEnding ending) :=
  List.decidableBAll _ ending

namespace IsEnding

variable {ending : Bytes}

theorem ascii
    (hEnding : IsEnding ending) :
    ∀ b ∈ ending, b < 0x80 := by
  intro b hMem
  rcases hEnding b hMem with rfl | rfl <;> decide

/- It is dropped from the line that it is read with. -/
theorem dropLineEnd_append
    (hEnding : IsEnding ending)
    (line : List Char) :
    Command.dropLineEnd (line ++ Utf8.decodeChars ending) =
      Command.dropLineEnd line := by
  unfold Command.dropLineEnd
  rw [List.reverse_append, List.dropWhile_append_of_pos]
  intro c hMem
  rw [List.mem_reverse, Utf8.decodeChars,
    Utf8.scan_ascii hEnding.ascii, List.map_map, List.mem_map]
    at hMem
  rcases hMem with ⟨b, hByte, rfl⟩
  rcases hEnding b hByte with rfl | rfl <;> rfl

end IsEnding

namespace Command

/-
  A well-formed line is read without its ending. Any other
  line is kept with it.
-/
theorem ofBytes_append_ending
    {ending : Bytes}
    (hEnding : IsEnding ending)
    (line : Bytes) :
    ofBytes (line ++ ending) =
      match Utf8.decode? line with
      | some text => ofLine text
      | none =>
          .invalid
            (Utf8.decodeLossy line ++ Utf8.decodeLossy ending) := by
  unfold ofBytes
  rw [Utf8.decode?_append_ascii hEnding.ascii,
    Utf8.decodeLossy_append_ascii hEnding.ascii]
  cases Utf8.decode? line with
  | none => rfl
  | some text =>
      dsimp only [Option.map_some]
      rw [ofLine, ofChars, String.toList_append,
        Utf8.decodeLossy, String.toList_ofList]
      rw [hEnding.dropLineEnd_append]
      rfl

/-
  What a line is read as does not depend on its ending
  exactly if there is none or the line is well-formed. And
  what a line is recognized as does not depend on the case of
  its verb.
-/
theorem ignoresEnding_iff
    (line ending : Bytes) :
    (IsEnding ending →
        (ofBytes (line ++ ending) = ofBytes line ↔
          ending = [] ∨ (Utf8.decode? line).isSome = true)) ∧
      ∀ verb ∈ Verb.all, verb.IgnoresCase := by
  refine ⟨?_, fun verb hVerb => Verb.ignoresCase hVerb⟩
  intro hEnding
  rw [ofBytes_append_ending hEnding, ofBytes]
  cases Utf8.decode? line with
  | some text => simp
  | none =>
      have hText :
          Utf8.decodeLossy line ++ Utf8.decodeLossy ending =
              Utf8.decodeLossy line ↔
            ending = [] := by
        rw [← String.toList_inj, String.toList_append,
          List.append_right_eq_self, Utf8.decodeLossy,
          String.toList_ofList, Utf8.decodeChars,
          Utf8.scan_ascii hEnding.ascii, List.map_map,
          List.map_eq_nil_iff]
      simp [hText]

/-
  A line with several endings, and one whose verb is written
  in two ways.
-/
theorem ignoresEnding_recipient :
    IsEnding [cr, lf, lf] ∧
      ofBytes (Utf8.encode "Noop é" ++ [cr, lf, lf]) =
        ofBytes (Utf8.encode "Noop é") ∧
      (ofBytes
          (Utf8.encode "RCPT TO:" ++ Utf8.encode " <b@x>\r\n")
        ).IsRecognized ∧
      ofBytes
          (Utf8.encode "rcPt tO:" ++ Utf8.encode " <b@x>\r\n") =
        ofBytes
          (Utf8.encode "RCPT TO:" ++
            Utf8.encode " <b@x>\r\n") := by
  have hEnding : IsEnding [cr, lf, lf] := by decide
  have hCommand :
      (ofBytes
          (Utf8.encode "RCPT TO:" ++ Utf8.encode " <b@x>\r\n")
        ).IsRecognized := by
    decide +kernel
  have hText :
      (Utf8.decode? (Utf8.encode "Noop é")).isSome = true := by
    rw [Utf8.decode?_encode]
    rfl
  refine ⟨hEnding, ?_, hCommand, ?_⟩
  · exact ((ignoresEnding_iff _ _).1 hEnding).mpr
      (Or.inr hText)
  · exact (ignoresEnding_iff [] []).2
      ⟨"RCPT TO:", false, .rcptTo ∘ argument⟩
      (by simp [Verb.all]) "RCPT TO:" "rcPt tO:"
      (Utf8.encode " <b@x>\r\n")
      (by decide +kernel) (by decide +kernel) hCommand

/- The text of a line that is ill-formed keeps its ending. -/
theorem ofBytes_illFormed_ne :
    IsEnding crlf ∧
      ofBytes ([0xFF] ++ crlf) ≠ ofBytes [0xFF] := by
  decide +kernel

end Command

end Smtp

end MailFilter
