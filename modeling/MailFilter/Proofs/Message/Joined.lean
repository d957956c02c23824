import Mathlib.Data.List.Basic
import MailFilter.Message.Basic

/-
  Header values without line breaks, and the addresses that
  they have.

  A value that goes on over several lines has the breaks in
  it, and so may its addresses. Where the breaks are replaced
  by spaces, the same addresses are found with the breaks
  replaced in them.

  Key definitions include:
    * `Text.IsUnbroken`
    * `Text.joined`
    * `Addresses.GoesOnJoined`
    * `Message.joined`

  Main statements:
    * `Addresses.read_joined`
    * `Message.sender_joined`
    * `Message.recipients_joined`
-/

namespace MailFilter

------------------------------------------------------------
-- Line Breaks
------------------------------------------------------------

namespace Text

/- The text has no characters that end a line. -/
def IsUnbroken
    (text : String) : Prop :=
  '\r' ∉ text.toList ∧ '\n' ∉ text.toList

instance
    (text : String) :
    Decidable (IsUnbroken text) := by
  unfold IsUnbroken
  infer_instance

theorem isUnbroken_append
    (front back : String) :
    IsUnbroken (front ++ back) ↔
      IsUnbroken front ∧ IsUnbroken back := by
  simp only [IsUnbroken, String.toList_append,
    List.mem_append, not_or]
  tauto

/- A space in the place of a character that ends a line. -/
def joinChar
    (c : Char) : Char :=
  if c == '\r' || c == '\n' then ' ' else c

/- The text with a space for each such character. -/
def joined
    (text : String) : String :=
  String.ofList (text.toList.map joinChar)

@[simp]
theorem toList_joined
    (text : String) :
    (joined text).toList = text.toList.map joinChar :=
  String.toList_ofList

theorem joinChar_eq_self_iff
    {c : Char} :
    joinChar c = c ↔ c ≠ '\r' ∧ c ≠ '\n' := by
  unfold joinChar
  split
  · rename_i hBreak
    simp only [Bool.or_eq_true, beq_iff_eq] at hBreak
    rcases hBreak with rfl | rfl
    · decide
    · decide
  · rename_i hNone
    simpa using hNone

theorem joined_eq_self_iff
    {text : String} :
    joined text = text ↔ IsUnbroken text := by
  have hSame :
      text.toList.map joinChar = text.toList ↔
        ∀ c ∈ text.toList, c ≠ '\r' ∧ c ≠ '\n' := by
    simp only [← joinChar_eq_self_iff]
    have hInj := List.map_inj_left
      (l := text.toList) (f := joinChar) (g := id)
    rwa [List.map_id] at hInj
  rw [← String.toList_inj, toList_joined, hSame]
  constructor
  · intro hNone
    exact ⟨fun hMem => (hNone _ hMem).1 rfl,
      fun hMem => (hNone _ hMem).2 rfl⟩
  · rintro ⟨hReturn, hFeed⟩ c hMem
    exact ⟨fun hEq => hReturn (hEq ▸ hMem),
      fun hEq => hFeed (hEq ▸ hMem)⟩

/- It is blank as the character was. -/
theorem isBlank_joinChar
    (c : Char) :
    isBlank (joinChar c) = isBlank c := by
  unfold joinChar
  split
  · rename_i hBreak
    simp only [Bool.or_eq_true, beq_iff_eq] at hBreak
    rcases hBreak with rfl | rfl
    · rfl
    · rfl
  · rfl

/- It is no other character than before. -/
theorem joinChar_beq
    (c : Char)
    {other : Char}
    (hOther :
      other ≠ '\r' ∧ other ≠ '\n' ∧ other ≠ ' ') :
    (joinChar c == other) = (c == other) := by
  rcases hOther with ⟨hReturn, hFeed, hSpace⟩
  unfold joinChar
  split
  · rename_i hBreak
    simp only [Bool.or_eq_true, beq_iff_eq] at hBreak
    rcases hBreak with rfl | rfl
    · simp [hReturn.symm, hSpace.symm]
    · simp [hFeed.symm, hSpace.symm]
  · rfl

end Text

------------------------------------------------------------
-- Reading Addresses
------------------------------------------------------------

namespace Addresses

open Text

/- The state with the breaks replaced in the text under way. -/
def State.joined : State → State
  | bracketed address => bracketed (address.map joinChar)
  | plain text => plain (text.map joinChar)
  | commentPlain text => commentPlain (text.map joinChar)
  | other => other

theorem contains_map_joinChar
    (text : List Char) :
    (text.map joinChar).contains '@' = text.contains '@' := by
  simp only [List.contains_eq_any_beq, List.any_map]
  congr 1
  funext c
  rw [Function.comp_apply, Bool.beq_comm, joinChar_beq c,
    Bool.beq_comm]
  decide

theorem ofList_reverse_map_joinChar
    (text : List Char) :
    String.ofList (text.map joinChar).reverse =
      Text.joined (String.ofList text.reverse) := by
  rw [Text.joined, String.toList_ofList, List.map_reverse]

theorem add?_joined
    (found : List String)
    (address : List Char) :
    add? (found.map Text.joined) (address.map joinChar) =
      (add? found address).map (List.map Text.joined) := by
  unfold add?
  rw [contains_map_joinChar]
  split
  · rw [ofList_reverse_map_joinChar]
    rfl
  · rfl

theorem addPlain?_joined
    (found : List String)
    (text : List Char) :
    addPlain? (found.map Text.joined) (text.map joinChar) =
      (addPlain? found text).map (List.map Text.joined) := by
  have hDrop :
      (text.map joinChar).dropWhile isBlank =
        (text.dropWhile isBlank).map joinChar := by
    rw [List.dropWhile_map]
    congr 2
    funext c
    exact isBlank_joinChar c
  rw [addPlain?, hDrop, add?_joined]
  rfl

theorem start?_joined
    (grouped : Bool)
    (c : Char) :
    start? grouped (joinChar c) =
      (start? grouped c).map fun (grouped, next) =>
        (grouped, next.joined) := by
  unfold start?
  rw [isBlank_joinChar, joinChar_beq c (by decide),
    joinChar_beq c (by decide), joinChar_beq c (by decide)]
  repeat' split
  all_goals rfl

/- What is found if the value ends in a state. -/
def atEnd
    (found : List String)
    (grouped : Bool) : State → Option (List String)
  | .start => if grouped then none else some found.reverse
  | .opened => some found.reverse
  | .closed => if grouped then none else some found.reverse
  | .plain text =>
      if grouped then none
      else (addPlain? found text).map List.reverse
  | _ => none

/- What a character leads to, given how reading goes on. -/
def takeChar
    (found : List String)
    (grouped : Bool)
    (goOn : List String → Bool → State → Option (List String)) :
    State → Char → Option (List String)
  | .start, c =>
      match start? grouped c with
      | some (grouped, next) => goOn found grouped next
      | none => none
  | .opened, c =>
      match start? grouped c with
      | some (grouped, next) => goOn found grouped next
      | none => none
  | .quoted, c =>
      if c == '\\' then goOn found grouped .escaped
      else if c == '"' then goOn found grouped .named
      else goOn found grouped .quoted
  | .escaped, _ => goOn found grouped .quoted
  | .named, c =>
      if c == '<' then goOn found grouped (.bracketed [])
      else if c == ':' then
        if grouped then none else goOn found true .opened
      else if c == '"' then goOn found grouped .quoted
      else goOn found grouped .named
  | .bracketed address, c =>
      if c == '>' then
        match add? found address with
        | some found => goOn found grouped .closed
        | none => none
      else goOn found grouped (.bracketed (c :: address))
  | .closed, c =>
      if isBlank c then goOn found grouped .closed
      else if c == ',' then goOn found grouped .start
      else if c == ';' then goOn found false .start
      else if c == '(' then goOn found grouped .commentClosed
      else none
  | .plain text, c =>
      if c == '<' then goOn found grouped (.bracketed [])
      else if c == ',' then
        match addPlain? found text with
        | some found => goOn found grouped .start
        | none => none
      else if c == ';' then
        match addPlain? found text with
        | some found => goOn found false .start
        | none => none
      else if c == ':' then
        if grouped then none else goOn found true .opened
      else if c == '(' then
        goOn found grouped (.commentPlain text)
      else goOn found grouped (.plain (c :: text))
  | .commentClosed, c =>
      if c == ')' then goOn found grouped .closed
      else goOn found grouped .commentClosed
  | .commentPlain text, c =>
      if c == ')' then goOn found grouped (.plain text)
      else goOn found grouped (.commentPlain text)

theorem readFrom?_nil
    (found : List String)
    (grouped : Bool)
    (state : State) :
    readFrom? found grouped state [] =
      atEnd found grouped state := by
  cases state <;> rfl

theorem readFrom?_cons
    (found : List String)
    (grouped : Bool)
    (state : State)
    (c : Char)
    (rest : List Char) :
    readFrom? found grouped state (c :: rest) =
      takeChar found grouped
          (fun found grouped next =>
            readFrom? found grouped next rest)
          state c := by
  cases state <;> rfl

theorem atEnd_joined
    (found : List String)
    (grouped : Bool)
    (state : State) :
    atEnd (found.map Text.joined) grouped state.joined =
      (atEnd found grouped state).map
          (List.map Text.joined) := by
  have hFound :
      some (found.map Text.joined).reverse =
        (some found.reverse).map (List.map Text.joined) := by
    rw [Option.map_some, List.map_reverse]
  unfold atEnd
  cases state with
  | start =>
      dsimp only [State.joined]
      rw [hFound]
      split
      · rfl
      · rfl
  | opened => exact hFound
  | closed =>
      dsimp only [State.joined]
      rw [hFound]
      split
      · rfl
      · rfl
  | plain text =>
      dsimp only [State.joined]
      rw [addPlain?_joined]
      split
      · rfl
      · simp only [Option.map_map, Function.comp_def,
          List.map_reverse]
  | _ => rfl

/-
  Two ways to go on reading of which the one gives what the
  other gives, with the breaks replaced.
-/
def GoesOnJoined
    (goOn other :
      List String → Bool → State → Option (List String)) :
    Prop :=
  ∀ found grouped next,
    other (found.map Text.joined) grouped next.joined =
      (goOn found grouped next).map (List.map Text.joined)

section

variable {goOn other :
  List String → Bool → State → Option (List String)}
variable (hGoOn : GoesOnJoined goOn other)
variable (found : List String)
variable (grouped : Bool)
variable (c : Char)

include hGoOn

/- Where an address may start, be it in a group or not. -/
theorem takeChar_start_joined :
    takeChar (found.map Text.joined) grouped other .start
        (joinChar c) =
      (takeChar found grouped goOn .start c).map
          (List.map Text.joined) := by
  unfold takeChar
  dsimp only
  rw [start?_joined]
  cases start? grouped c with
  | none => rfl
  | some next => exact hGoOn found next.1 next.2

/- In a text in quotes. -/
theorem takeChar_quoted_joined :
    takeChar (found.map Text.joined) grouped other .quoted
        (joinChar c) =
      (takeChar found grouped goOn .quoted c).map
          (List.map Text.joined) := by
  unfold takeChar
  dsimp only
  rw [joinChar_beq c (by decide), joinChar_beq c (by decide)]
  split
  · exact hGoOn found grouped .escaped
  split
  · exact hGoOn found grouped .named
  · exact hGoOn found grouped .quoted

/- After a text in quotes. -/
theorem takeChar_named_joined :
    takeChar (found.map Text.joined) grouped other .named
        (joinChar c) =
      (takeChar found grouped goOn .named c).map
          (List.map Text.joined) := by
  unfold takeChar
  dsimp only
  rw [joinChar_beq c (by decide), joinChar_beq c (by decide),
    joinChar_beq c (by decide)]
  split
  · exact hGoOn found grouped (.bracketed [])
  split
  · split
    · rfl
    · exact hGoOn found true .opened
  split
  · exact hGoOn found grouped .quoted
  · exact hGoOn found grouped .named

/- In an address in brackets. -/
theorem takeChar_bracketed_joined
    (address : List Char) :
    takeChar (found.map Text.joined) grouped other
        (.bracketed (address.map joinChar)) (joinChar c) =
      (takeChar found grouped goOn (.bracketed address) c).map
          (List.map Text.joined) := by
  unfold takeChar
  dsimp only
  rw [joinChar_beq c (by decide), add?_joined]
  split
  · cases add? found address with
    | none => rfl
    | some more => exact hGoOn more grouped .closed
  · exact hGoOn found grouped (.bracketed (c :: address))

/- After an address in brackets. -/
theorem takeChar_closed_joined :
    takeChar (found.map Text.joined) grouped other .closed
        (joinChar c) =
      (takeChar found grouped goOn .closed c).map
          (List.map Text.joined) := by
  unfold takeChar
  dsimp only
  rw [isBlank_joinChar, joinChar_beq c (by decide),
    joinChar_beq c (by decide), joinChar_beq c (by decide)]
  split
  · exact hGoOn found grouped .closed
  split
  · exact hGoOn found grouped .start
  split
  · exact hGoOn found false .start
  split
  · exact hGoOn found grouped .commentClosed
  · rfl

/- In an address or a name without brackets and quotes. -/
theorem takeChar_plain_joined
    (text : List Char) :
    takeChar (found.map Text.joined) grouped other
        (.plain (text.map joinChar)) (joinChar c) =
      (takeChar found grouped goOn (.plain text) c).map
          (List.map Text.joined) := by
  unfold takeChar
  dsimp only
  rw [addPlain?_joined, joinChar_beq c (by decide),
    joinChar_beq c (by decide), joinChar_beq c (by decide),
    joinChar_beq c (by decide), joinChar_beq c (by decide)]
  split
  · exact hGoOn found grouped (.bracketed [])
  split
  · cases addPlain? found text with
    | none => rfl
    | some more => exact hGoOn more grouped .start
  split
  · cases addPlain? found text with
    | none => rfl
    | some more => exact hGoOn more false .start
  split
  · split
    · rfl
    · exact hGoOn found true .opened
  split
  · exact hGoOn found grouped (.commentPlain text)
  · exact hGoOn found grouped (.plain (c :: text))

/- In a comment, after which reading goes on as before it. -/
theorem takeChar_comment_joined :
    takeChar (found.map Text.joined) grouped other
          .commentClosed (joinChar c) =
        (takeChar found grouped goOn .commentClosed c).map
            (List.map Text.joined) ∧
      ∀ text : List Char,
        takeChar (found.map Text.joined) grouped other
            (.commentPlain (text.map joinChar)) (joinChar c) =
          (takeChar found grouped goOn (.commentPlain text)
              c).map (List.map Text.joined) := by
  unfold takeChar
  dsimp only
  rw [joinChar_beq c (by decide)]
  constructor
  · split
    · exact hGoOn found grouped .closed
    · exact hGoOn found grouped .commentClosed
  · intro text
    split
    · exact hGoOn found grouped (.plain text)
    · exact hGoOn found grouped (.commentPlain text)

/-
  One character leads to the same with the breaks replaced, if
  reading goes on the same way.
-/
theorem takeChar_joined
    (state : State) :
    takeChar (found.map Text.joined) grouped other
        state.joined (joinChar c) =
      (takeChar found grouped goOn state c).map
          (List.map Text.joined) := by
  cases state with
  | start => exact takeChar_start_joined hGoOn found grouped c
  | opened => exact takeChar_start_joined hGoOn found grouped c
  | quoted => exact takeChar_quoted_joined hGoOn found grouped c
  | escaped => exact hGoOn found grouped .quoted
  | named => exact takeChar_named_joined hGoOn found grouped c
  | bracketed address =>
      exact takeChar_bracketed_joined hGoOn found grouped c
        address
  | closed => exact takeChar_closed_joined hGoOn found grouped c
  | plain text =>
      exact takeChar_plain_joined hGoOn found grouped c text
  | commentClosed =>
      exact (takeChar_comment_joined hGoOn found grouped c).1
  | commentPlain text =>
      exact (takeChar_comment_joined hGoOn found grouped c).2 text

end

/-
  Reading with the breaks replaced gives what reading gives,
  with the breaks replaced.
-/
theorem readFrom?_joined
    (found : List String)
    (grouped : Bool)
    (state : State)
    (text : List Char) :
    readFrom? (found.map Text.joined) grouped state.joined
        (text.map joinChar) =
      (readFrom? found grouped state text).map
          (List.map Text.joined) := by
  induction text generalizing found grouped state with
  | nil =>
      rw [List.map_nil, readFrom?_nil, readFrom?_nil,
        atEnd_joined]
  | cons c rest ih =>
      rw [List.map_cons, readFrom?_cons, readFrom?_cons]
      have hGoOn :
          GoesOnJoined
            (fun found grouped next =>
              readFrom? found grouped next rest)
            (fun found grouped next =>
              readFrom? found grouped next
                (rest.map joinChar)) := ih
      exact takeChar_joined hGoOn found grouped c state

/- The addresses of a value with its breaks replaced. -/
theorem read_joined
    (value : String) :
    read (Text.joined value) = (read value).map Text.joined := by
  have hFrom :=
    readFrom?_joined [] false .start value.toList
  rw [read, read, toList_joined]
  refine (congrArg (·.getD []) hFrom).trans ?_
  cases readFrom? [] false .start value.toList with
  | none => rfl
  | some found => rfl

end Addresses

------------------------------------------------------------
-- Messages
------------------------------------------------------------

namespace Message

/- The message with the breaks in its values replaced. -/
def joined
    (message : Message) : Message :=
  { message with
    headers := message.headers.map fun header =>
      { header with value := Text.joined header.value } }

theorem values_joined
    (message : Message)
    (name : String) :
    message.joined.values name =
      (message.values name).map Text.joined := by
  rw [values, values, joined, List.filter_map, List.map_map,
    List.map_map]
  rfl

theorem addresses_joined
    (message : Message)
    (name : String) :
    message.joined.addresses name =
      (message.addresses name).map Text.joined := by
  rw [addresses, addresses, values_joined, List.flatMap_map,
    List.map_flatMap]
  congr 1
  funext value
  exact Addresses.read_joined value

theorem sender_joined
    (message : Message) :
    message.joined.sender = message.sender.map Text.joined := by
  rw [sender, sender, addresses_joined, List.head?_map]

theorem recipients_joined
    (message : Message) :
    message.joined.recipients =
      message.recipients.map Text.joined := by
  rw [recipients, recipients, addresses_joined,
    addresses_joined, addresses_joined, List.map_append,
    List.map_append]

/- The sender has no breaks if replacing them keeps it. -/
theorem sender_joined_eq_iff
    (message : Message) :
    message.joined.sender = message.sender ↔
      ∀ address, message.sender = some address →
        Text.IsUnbroken address := by
  rw [sender_joined]
  cases message.sender with
  | none => simp
  | some address => simp [Text.joined_eq_self_iff]

theorem recipients_joined_eq_iff
    (message : Message) :
    message.joined.recipients = message.recipients ↔
      ∀ address ∈ message.recipients,
        Text.IsUnbroken address := by
  have hInj := List.map_inj_left
    (l := message.recipients) (f := Text.joined) (g := id)
  rw [List.map_id] at hInj
  simp only [recipients_joined, hInj, id_eq,
    Text.joined_eq_self_iff]

end Message

end MailFilter
