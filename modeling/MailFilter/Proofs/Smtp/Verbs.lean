import MailFilter.Proofs.Smtp.Arguments

/-
  The verbs that commands start with.

  Every command starts with one of a few verbs, in any case,
  and no line starts with two of them. So what is made of a
  line is what its own verb makes of the text after it.

  Key definitions include:
    * `Text.Parts`
    * `Smtp.Verb`
    * `Smtp.Verb.all`
    * `Smtp.Verb.after`

  Main statements:
    * `Text.dropPrefix?_append`
    * `Text.Parts.dropPrefix?_append`
    * `Smtp.Verb.read_append`
    * `Smtp.Verb.findSome?_readers`
-/

namespace MailFilter

------------------------------------------------------------
-- Texts Up To Case
------------------------------------------------------------

namespace Text

/- No letter is blank, in either case. -/
theorem isBlank_toLower
    (c : Char) :
    isBlank c.toLower = isBlank c := by
  unfold isBlank
  rw [toNat_toLower, Bool.eq_iff_iff]
  split
  · simp only [Bool.or_eq_true, Bool.and_eq_true,
      decide_eq_true_eq, beq_iff_eq]
    omega
  · rfl

theorem map_toLower_of_sameName
    {a b : String}
    (hSame : sameName a b = true) :
    a.toList.map Char.toLower = b.toList.map Char.toLower := by
  rw [← toList_lower, ← toList_lower, sameName_iff.mp hSame]

/- Equal beginnings are dropped. -/
theorem dropPrefix?_append
    {word text : List Char}
    (hSame : word.map Char.toLower = text.map Char.toLower)
    (more rest : List Char) :
    dropPrefix? (word ++ more) (text ++ rest) =
      dropPrefix? more rest := by
  induction word generalizing text with
  | nil =>
      rw [List.map_nil, eq_comm, List.map_eq_nil_iff] at hSame
      rw [hSame]
      rfl
  | cons w word ih =>
      cases text with
      | nil => cases hSame
      | cons c text =>
          rw [List.map_cons, List.map_cons] at hSame
          injection hSame with hFirst hRest
          rw [List.cons_append, List.cons_append, dropPrefix?,
            if_pos (beq_iff_eq.mpr hFirst)]
          exact ih hRest

end Text

------------------------------------------------------------
-- Texts That Start In Different Ways
------------------------------------------------------------

namespace Text

/-
  Both texts have a letter at some place up to which they are
  equal and at which they are not, up to case.
-/
def Parts : List Char → List Char → Prop
  | v :: word, w :: other =>
      v.toLower = w.toLower → Parts word other
  | _, _ => False

instance :
    (word other : List Char) → Decidable (Parts word other)
  | v :: word, w :: other =>
      have := instDecidableParts word other
      inferInstanceAs
        (Decidable (v.toLower = w.toLower → Parts word other))
  | [], _ => isFalse id
  | _ :: _, [] => isFalse id

theorem Parts.symm
    {word other : List Char}
    (hParts : Parts word other) :
    Parts other word := by
  induction word generalizing other with
  | nil => exact hParts.elim
  | cons v word ih =>
      cases other with
      | nil => exact hParts.elim
      | cons w other => exact fun hSame => ih (hParts hSame.symm)

/- A text does not start with one that it parts from. -/
theorem Parts.dropPrefix?_append
    {word other text : List Char}
    (hParts : Parts word other)
    (hSame : text.map Char.toLower = other.map Char.toLower)
    (rest : List Char) :
    dropPrefix? word (text ++ rest) = none := by
  induction word generalizing other text with
  | nil => exact hParts.elim
  | cons v word ih =>
      cases other with
      | nil => exact hParts.elim
      | cons w other =>
          cases text with
          | nil => cases hSame
          | cons c text =>
              rw [List.map_cons, List.map_cons] at hSame
              injection hSame with hFirst hMore
              rw [List.cons_append, dropPrefix?]
              split
              · rename_i hEqual
                exact ih
                  (hParts ((beq_iff_eq.mp hEqual).trans hFirst))
                  hMore
              · rfl

end Text

namespace Smtp

open Bytes Text

------------------------------------------------------------
-- Verbs
------------------------------------------------------------

/-
  What a command starts with, whether that has to be a whole
  word, and what is made of the text after it.
-/
structure Verb where
  text : String
  isWord : Bool
  make : List Char → Command

namespace Verb

/- What the verb makes of a line, if it starts with it. -/
def read
    (verb : Verb)
    (line : List Char) : Option Command :=
  match verb.isWord with
  | true => (Command.afterVerb? verb.text line).map verb.make
  | false => (dropPrefix? verb.text.toList line).map verb.make

/- All verbs, in the order in which they are looked for. -/
def all : List Verb :=
  [ ⟨"QUIT", true, fun _ => .quit⟩,
    ⟨"HELO", true, .helo ∘ Command.argument⟩,
    ⟨"EHLO", true, .ehlo ∘ Command.argument⟩,
    ⟨"XFORWARD", true,
      .xforward ∘ Command.forwardedAddress?⟩,
    ⟨"MAIL FROM:", false, .mailFrom ∘ Command.argument⟩,
    ⟨"RCPT TO:", false, .rcptTo ∘ Command.argument⟩,
    ⟨"DATA", true, fun _ => .data⟩,
    ⟨"RSET", true, fun _ => .rset⟩,
    ⟨"NOOP", true, fun _ => .noop⟩ ]

theorem readers_eq :
    Command.readers = all.map read :=
  rfl

/- What the verb makes of the text after it. -/
def after
    (verb : Verb)
    (rest : List Char) : Option Command :=
  if verb.isWord && rest.head?.any (!isBlank ·) then none
  else some (verb.make rest)

/- No line starts with two verbs. -/
theorem pairwise_parts :
    all.Pairwise fun verb other =>
      Parts verb.text.toList other.text.toList := by
  decide

/- No verb ends in a blank. -/
theorem isBlank_of_getLast?_text
    {verb : Verb}
    (hVerb : verb ∈ all)
    {c : Char}
    (hLast : verb.text.toList.getLast? = some c) :
    isBlank c = false := by
  have hAll :
      (all.all fun verb =>
        !verb.text.toList.getLast?.any isBlank) = true := by
    decide
  have hNone := List.all_eq_true.mp hAll verb hVerb
  rw [hLast, Option.any_some, Bool.not_eq_true'] at hNone
  exact hNone

/- What starts with the verb is read as the text after it. -/
theorem read_append
    {verb : Verb}
    {word : String}
    (hSame : sameName word verb.text = true)
    (rest : List Char) :
    verb.read (word.toList ++ rest) = verb.after rest := by
  have hDrop :
      dropPrefix? verb.text.toList (word.toList ++ rest) =
        some rest := by
    have hWhole :=
      dropPrefix?_append (map_toLower_of_sameName hSame).symm
        [] rest
    rwa [List.append_nil] at hWhole
  unfold read after
  cases verb.isWord with
  | false =>
      dsimp only
      rw [hDrop]
      rfl
  | true =>
      dsimp only
      rw [Command.afterVerb?, hDrop]
      cases rest with
      | nil => rfl
      | cons c rest => cases hBlank : isBlank c <;> simp [hBlank]

theorem read_of_parts
    {verb other : Verb}
    (hParts : Parts other.text.toList verb.text.toList)
    {word : String}
    (hSame : sameName word verb.text = true)
    (rest : List Char) :
    other.read (word.toList ++ rest) = none := by
  have hDrop :=
    hParts.dropPrefix?_append (map_toLower_of_sameName hSame) rest
  unfold read
  cases other.isWord with
  | false =>
      dsimp only
      rw [hDrop]
      rfl
  | true =>
      dsimp only
      rw [Command.afterVerb?, hDrop]
      rfl

/- No verb other than the one that the line starts with counts. -/
theorem findSome?_readers
    {verb : Verb}
    (hVerb : verb ∈ all)
    {word : String}
    (hSame : sameName word verb.text = true)
    (rest : List Char) :
    Command.readers.findSome? (· (word.toList ++ rest)) =
      verb.after rest := by
  rcases List.append_of_mem hVerb with ⟨front, back, hAll⟩
  have hApart := pairwise_parts
  rw [hAll, List.pairwise_append, List.pairwise_cons] at hApart
  rcases hApart with ⟨-, ⟨hLater, -⟩, hEarlier⟩
  have hFront :
      front.findSome? (·.read (word.toList ++ rest)) = none := by
    rw [List.findSome?_eq_none_iff]
    intro other hOther
    exact read_of_parts
      (hEarlier other hOther verb List.mem_cons_self) hSame rest
  have hBack :
      back.findSome? (·.read (word.toList ++ rest)) = none := by
    rw [List.findSome?_eq_none_iff]
    intro other hOther
    exact read_of_parts (hLater other hOther).symm hSame rest
  rw [readers_eq, List.findSome?_map, hAll, List.findSome?_append]
  change (front.findSome? (·.read (word.toList ++ rest))).or
    ((verb :: back).findSome? (·.read (word.toList ++ rest))) = _
  rw [hFront, Option.none_or, List.findSome?_cons,
    read_append hSame, hBack]
  cases verb.after rest <;> rfl

end Verb

end Smtp

end MailFilter
