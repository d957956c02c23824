import MailFilter.Proofs.Smtp.Verbs

/-
  The attributes that an XFORWARD command passes on.

  The words after the verb are attributes, each with a name,
  an equals sign and a value. What is wanted is the value of
  the attribute named ADDR. What is looked for is its name
  with the equals sign, wherever in the words that is, and
  what is taken is the text up to the next blank, or the next
  word if there is no such text.

  So the value is taken if no word before the attribute has
  its name and equals sign in it, and if the value is not
  empty or no other word follows.

  Key definitions include:
    * `Smtp.Attribute`
    * `Smtp.Attribute.found?`
    * `Smtp.Forwarding`
    * `Smtp.Forwarding.addressOf`
    * `Smtp.Forwarding.taken?`
    * `Smtp.Forwarding.IsFoundInPlace`

  Main statements:
    * `Text.dropThrough?_append`
    * `Smtp.Attribute.found?_of_isAddress`
    * `Smtp.Forwarding.forwardedAddress?_restOf`
    * `Smtp.Forwarding.ofLine_text`
    * `Smtp.Forwarding.ofLine_iff`
-/

namespace MailFilter

------------------------------------------------------------
-- Words And Gaps
------------------------------------------------------------

namespace Text

/- No character of the text is blank. -/
def IsSolid
    (text : List Char) : Prop :=
  ∀ c ∈ text, isBlank c = false

instance
    (text : List Char) :
    Decidable (IsSolid text) :=
  List.decidableBAll _ text

/- All characters of the text are blank. -/
def IsGap
    (text : List Char) : Prop :=
  ∀ c ∈ text, isBlank c = true

instance
    (text : List Char) :
    Decidable (IsGap text) :=
  List.decidableBAll _ text

/- Nothing follows, or a blank does. -/
def EndsWord
    (rest : List Char) : Prop :=
  ∀ c ∈ rest.head?, isBlank c = true

theorem IsGap.endsWord
    {gap : List Char}
    (hGap : IsGap gap) :
    EndsWord gap :=
  fun c hFirst => hGap c (List.mem_of_mem_head? hFirst)

/- A word ends where a blank does. -/
theorem firstWord_append
    {word rest : List Char}
    (hSolid : IsSolid word)
    (hWord : word ≠ [])
    (hRest : EndsWord rest) :
    firstWord (word ++ rest) = word := by
  have hStart : trimStart (word ++ rest) = word ++ rest := by
    cases word with
    | nil => exact absurd rfl hWord
    | cons c more =>
        have hFirst : isBlank c = false :=
          hSolid c List.mem_cons_self
        simp [trimStart, hFirst]
  have hEnd : rest.takeWhile (!isBlank ·) = [] := by
    cases rest with
    | nil => rfl
    | cons c more => simp [hRest c rfl]
  rw [firstWord, hStart, List.takeWhile_append_of_pos, hEnd,
    List.append_nil]
  exact fun c hMem => by rw [hSolid c hMem]; rfl

theorem firstWord_gap_append
    {gap : List Char}
    (hGap : IsGap gap)
    (rest : List Char) :
    firstWord (gap ++ rest) = firstWord rest := by
  unfold firstWord trimStart
  rw [List.dropWhile_append_of_pos hGap]

theorem firstWord_gap
    {gap : List Char}
    (hGap : IsGap gap) :
    firstWord gap = [] := by
  have hNone := firstWord_gap_append hGap []
  rwa [List.append_nil] at hNone

------------------------------------------------------------
-- Looking For A Text
------------------------------------------------------------

/- A blank is none of the characters of a word. -/
theorem toLower_ne_of_isBlank
    {w c : Char}
    (hWord : isBlank w = false)
    (hBlank : isBlank c = true) :
    (w.toLower == c.toLower) = false := by
  rw [beq_eq_false_iff_ne]
  intro hSame
  have hOther := congrArg isBlank hSame
  rw [isBlank_toLower, isBlank_toLower, hWord, hBlank] at hOther
  cases hOther

variable {mark : List Char}

/- What ends a word is no part of what is dropped. -/
theorem dropPrefix?_append_endsWord
    (hMark : IsSolid mark)
    (text : List Char)
    {rest : List Char}
    (hRest : EndsWord rest) :
    dropPrefix? mark (text ++ rest) =
      (dropPrefix? mark text).map (· ++ rest) := by
  induction mark generalizing text with
  | nil => rfl
  | cons w mark ih =>
      rcases List.forall_mem_cons.mp hMark with
        ⟨hFirst, hMore⟩
      cases text with
      | nil =>
          cases rest with
          | nil => rfl
          | cons c rest =>
              have hNot :=
                toLower_ne_of_isBlank hFirst (hRest c rfl)
              simp [dropPrefix?, hNot]
      | cons c text =>
          rw [List.cons_append, dropPrefix?, dropPrefix?]
          split
          · exact ih hMore text
          · rfl

theorem dropThrough?_of_dropPrefix?
    {text found : List Char}
    (hFound : dropPrefix? mark text = some found) :
    dropThrough? mark text = some found := by
  cases text with
  | nil => exact hFound
  | cons c text => simp only [dropThrough?, hFound]

theorem dropThrough?_nil
    (hSome : mark ≠ []) :
    dropThrough? mark [] = none := by
  cases mark with
  | nil => exact absurd rfl hSome
  | cons w mark => rfl

/-
  The text is looked for in a word first, and then in what
  comes after it.
-/
theorem dropThrough?_append
    (hMark : IsSolid mark)
    (hSome : mark ≠ [])
    (text : List Char)
    {rest : List Char}
    (hRest : EndsWord rest) :
    dropThrough? mark (text ++ rest) =
      ((dropThrough? mark text).map (· ++ rest)).or
          (dropThrough? mark rest) := by
  induction text with
  | nil =>
      rw [dropThrough?_nil hSome]
      rfl
  | cons c text ih =>
      have hPrefix :=
        dropPrefix?_append_endsWord hMark (c :: text) hRest
      rw [List.cons_append] at hPrefix
      rw [List.cons_append, dropThrough?, dropThrough?, hPrefix]
      cases dropPrefix? mark (c :: text) with
      | some found => rfl
      | none => exact ih

/- Gaps are passed over. -/
theorem dropThrough?_gap_append
    (hMark : IsSolid mark)
    (hSome : mark ≠ [])
    {gap : List Char}
    (hGap : IsGap gap)
    (rest : List Char) :
    dropThrough? mark (gap ++ rest) = dropThrough? mark rest := by
  cases mark with
  | nil => exact absurd rfl hSome
  | cons w mark =>
      induction gap with
      | nil => rfl
      | cons c gap ih =>
          rcases List.forall_mem_cons.mp hGap with
            ⟨hFirst, hMore⟩
          have hNot :=
            toLower_ne_of_isBlank
              (hMark w List.mem_cons_self) hFirst
          rw [List.cons_append, dropThrough?, dropPrefix?,
            if_neg (by rw [hNot]; exact Bool.false_ne_true)]
          exact ih hMore

end Text

namespace Smtp

open Text

------------------------------------------------------------
-- Attributes
------------------------------------------------------------

/-
  An attribute of a command: a name, an equals sign and a
  value, with the gap before them. The value may be empty, and
  may have equals signs in it.
-/
structure Attribute where
  gap : List Char
  name : List Char
  value : List Char
  gap_ne_nil : gap ≠ []
  isGap_gap : IsGap gap
  isSolid_name : IsSolid name
  equals_not_mem_name : '=' ∉ name
  isSolid_value : IsSolid value

namespace Attribute

/- An attribute as it is written. -/
def word
    (a : Attribute) : List Char :=
  a.name ++ '=' :: a.value

/- An attribute as it is written, after its gap. -/
def text
    (a : Attribute) : List Char :=
  a.gap ++ a.word

/- The attribute is the address of the client. -/
def isAddress
    (a : Attribute) : Bool :=
  sameName (String.ofList a.name) "ADDR"

/- The value, unless it is empty. -/
def value?
    (a : Attribute) : Option String :=
  if a.value.isEmpty then none else some (String.ofList a.value)

/- What is looked for. -/
def mark : List Char :=
  "ADDR=".toList

/- What follows it in the attribute, if it is in there. -/
def found?
    (a : Attribute) : Option (List Char) :=
  dropThrough? mark a.word

theorem isSolid_mark :
    IsSolid mark := by
  decide

theorem mark_ne_nil :
    mark ≠ [] := by
  decide

theorem word_ne_nil
    (a : Attribute) :
    a.word ≠ [] := by
  simp [word]

theorem isSolid_word
    (a : Attribute) :
    IsSolid a.word := by
  intro c hMem
  rcases List.mem_append.mp hMem with hName | hValue
  · exact a.isSolid_name c hName
  · rcases List.mem_cons.mp hValue with rfl | hValue
    · rfl
    · exact a.isSolid_value c hValue

theorem isSolid_of_found?
    {a : Attribute}
    {found : List Char}
    (hFound : a.found? = some found) :
    IsSolid found :=
  fun c hMem =>
    a.isSolid_word c (subset_of_dropThrough? hFound hMem)

/- In the address it is found right before the value. -/
theorem found?_of_isAddress
    {a : Attribute}
    (hAddress : a.isAddress = true) :
    a.found? = some a.value := by
  have hName := map_toLower_of_sameName hAddress
  rw [String.toList_ofList] at hName
  exact dropThrough?_of_dropPrefix?
    (dropPrefix?_append hName.symm ['='] ('=' :: a.value))

end Attribute

------------------------------------------------------------
-- Commands With Attributes
------------------------------------------------------------

/-
  A line with the verb in any case, attributes, and blanks at
  the end, such as a line ending.
-/
structure Forwarding where
  verb : String
  attributes : List Attribute
  ending : List Char
  sameName_verb : sameName verb "XFORWARD" = true
  isGap_ending : IsGap ending

namespace Forwarding

/- Attributes as they are written, up to the end of a line. -/
def restOf
    (attributes : List Attribute)
    (ending : List Char) : List Char :=
  attributes.flatMap Attribute.text ++ ending

/- The line as it is written. -/
def text
    (line : Forwarding) : String :=
  String.ofList
    (line.verb.toList ++ restOf line.attributes line.ending)

/-
  What a command is to pass on: the value of the first address
  among its attributes, if there is one and it is not empty.
-/
def addressOf
    (attributes : List Attribute) : Option String :=
  (attributes.find? Attribute.isAddress).bind Attribute.value?

/-
  The first attribute in which the text is found that is
  looked for, with what follows that text in it, and the
  attributes that come next.
-/
def firstFound? :
    List Attribute →
      Option (Attribute × List Char × List Attribute)
  | [] => none
  | a :: more =>
      match a.found? with
      | some found => some (a, found, more)
      | none => firstFound? more

/-
  What is taken where the text was found: what follows it, or
  the next attribute as a whole, if there is one.
-/
def takenOf
    (found : List Char)
    (more : List Attribute) : Option String :=
  if found.isEmpty then
    more.head?.map fun next => String.ofList next.word
  else
    some (String.ofList found)

/- What a command does pass on. -/
def taken?
    (attributes : List Attribute) : Option String :=
  (firstFound? attributes).bind fun (_, found, more) =>
    takenOf found more

/-
  The first attribute in which the text is found is the
  address, which has a value or is the last attribute. Or it
  is another attribute, and what is taken by mistake is what
  the address would have been.
-/
def IsFoundInPlace
    (attributes : List Attribute) : Prop :=
  ∀ a found more,
    firstFound? attributes = some (a, found, more) →
      (a.isAddress = true ∧ (a.value ≠ [] ∨ more = [])) ∨
        (a.isAddress = false ∧
          takenOf found more = addressOf more)

------------------------------------------------------------
-- What Is Taken
------------------------------------------------------------

theorem endsWord_restOf
    (attributes : List Attribute)
    {ending : List Char}
    (hEnding : IsGap ending) :
    EndsWord (restOf attributes ending) := by
  cases attributes with
  | nil => exact hEnding.endsWord
  | cons a more =>
      intro c hFirst
      rcases hGap : a.gap with _ | ⟨first, gap⟩
      · exact absurd hGap a.gap_ne_nil
      · simp only [restOf, List.flatMap_cons, Attribute.text,
          hGap, List.cons_append, List.head?_cons,
          Option.mem_def, Option.some.injEq] at hFirst
        subst hFirst
        apply a.isGap_gap
        rw [hGap]
        exact List.mem_cons_self

theorem restOf_cons
    (a : Attribute)
    (more : List Attribute)
    (ending : List Char) :
    restOf (a :: more) ending =
      a.gap ++ (a.word ++ restOf more ending) := by
  simp [restOf, Attribute.text]

/- The text is looked for in one attribute after the other. -/
theorem dropThrough?_restOf
    (attributes : List Attribute)
    {ending : List Char}
    (hEnding : IsGap ending) :
    dropThrough? Attribute.mark (restOf attributes ending) =
      (firstFound? attributes).map fun (_, found, more) =>
      found ++ restOf more ending := by
  have hSolid := Attribute.isSolid_mark
  have hSome := Attribute.mark_ne_nil
  induction attributes with
  | nil =>
      have hNone :=
        dropThrough?_gap_append hSolid hSome hEnding []
      rw [List.append_nil, dropThrough?_nil hSome] at hNone
      exact hNone
  | cons a more ih =>
      have hAfter := endsWord_restOf more hEnding
      rw [restOf_cons,
        dropThrough?_gap_append hSolid hSome a.isGap_gap,
        dropThrough?_append hSolid hSome a.word hAfter, ih,
        firstFound?, Attribute.found?]
      cases dropThrough? Attribute.mark a.word <;> rfl

theorem found?_of_firstFound?
    {attributes more : List Attribute}
    {a : Attribute}
    {found : List Char}
    (hFirst :
      firstFound? attributes = some (a, found, more)) :
    a.found? = some found := by
  induction attributes with
  | nil => cases hFirst
  | cons b rest ih =>
      unfold firstFound? at hFirst
      split at hFirst
      · rename_i hFound
        cases hFirst
        exact hFound
      · exact ih hFirst

/- The word that is taken is the next one if nothing is left. -/
theorem firstWord_append_restOf
    {found : List Char}
    (hFound : IsSolid found)
    (more : List Attribute)
    {ending : List Char}
    (hEnding : IsGap ending) :
    firstWord (found ++ restOf more ending) =
      if found.isEmpty then
          (more.head?.map Attribute.word).getD []
        else found := by
  cases found with
  | cons c found =>
      exact firstWord_append hFound (List.cons_ne_nil c found)
        (endsWord_restOf more hEnding)
  | nil =>
      cases more with
      | nil => exact firstWord_gap hEnding
      | cons next more =>
          rw [List.nil_append, restOf_cons,
            firstWord_gap_append next.isGap_gap]
          exact firstWord_append next.isSolid_word
            next.word_ne_nil (endsWord_restOf more hEnding)

/- What a command passes on, by its attributes. -/
theorem forwardedAddress?_restOf
    (attributes : List Attribute)
    {ending : List Char}
    (hEnding : IsGap ending) :
    Command.forwardedAddress? (restOf attributes ending) =
      taken? attributes := by
  unfold Command.forwardedAddress? taken?
  have hFound := dropThrough?_restOf attributes hEnding
  change dropThrough? "ADDR=".toList _ = _ at hFound
  rw [hFound]
  cases hFirst : firstFound? attributes with
  | none => rfl
  | some first =>
      rcases first with ⟨a, found, more⟩
      have hSolid :=
        Attribute.isSolid_of_found? (found?_of_firstFound? hFirst)
      simp only [Option.map_some, Option.bind_some]
      rw [firstWord_append_restOf hSolid more hEnding]
      cases found with
      | cons c found => rfl
      | nil =>
          cases more with
          | nil => rfl
          | cons next more =>
              have hNext := next.word_ne_nil
              simp [takenOf, hNext]

------------------------------------------------------------
-- Reading The Line
------------------------------------------------------------

/- No other verb fits. -/
theorem findSome?_readers
    {verb : String}
    (hVerb : sameName verb "XFORWARD" = true)
    {rest : List Char}
    (hRest : EndsWord rest) :
    Command.readers.findSome? (· (verb.toList ++ rest)) =
      some (.xforward (Command.forwardedAddress? rest)) := by
  have hAll :
      ⟨"XFORWARD", true, .xforward ∘ Command.forwardedAddress?⟩ ∈
        Verb.all := by
    simp [Verb.all]
  rw [Verb.findSome?_readers hAll hVerb, Verb.after]
  cases rest with
  | nil => rfl
  | cons c rest => simp [hRest c rfl]

/- The verb and the attributes do not end in a blank. -/
theorem isBlank_of_getLast?_front
    (line : Forwarding) :
    ∀ c ∈ (line.verb.toList ++
        line.attributes.flatMap Attribute.text).getLast?,
      isBlank c = false := by
  rcases line.attributes.eq_nil_or_concat with
    hNone | ⟨front, a, hLast⟩
  · rw [hNone, List.flatMap_nil, List.append_nil]
    intro c hMem
    have hLower := map_toLower_of_sameName line.sameName_verb
    have hChar : c.toLower ∈ "xforward".toList := by
      have hMap := List.mem_map_of_mem (f := Char.toLower)
        (List.mem_of_mem_getLast? hMem)
      rw [hLower] at hMap
      exact hMap
    rw [← isBlank_toLower]
    have hSolid : IsSolid "xforward".toList := by
      decide
    exact hSolid _ hChar
  · intro c hMem
    rw [hLast, List.concat_eq_append, List.flatMap_append,
      List.flatMap_singleton, Attribute.text,
      ← List.append_assoc, ← List.append_assoc,
      List.getLast?_append_of_ne_nil _ a.word_ne_nil] at hMem
    exact a.isSolid_word c (List.mem_of_mem_getLast? hMem)

theorem dropLineEnd_line
    (line : Forwarding) :
    Command.dropLineEnd
        (line.verb.toList ++ restOf line.attributes line.ending) =
      line.verb.toList ++
        restOf line.attributes
          (Command.dropLineEnd line.ending) := by
  unfold restOf
  rw [← List.append_assoc,
    Command.dropLineEnd_append fun c hLast =>
      Command.not_endsLine_of_isBlank
        (line.isBlank_of_getLast?_front c hLast),
    List.append_assoc]

/- Such a line is read as a command that passes this on. -/
theorem ofLine_text
    (line : Forwarding) :
    Command.ofLine line.text =
      .xforward (taken? line.attributes) := by
  have hEnding : IsGap (Command.dropLineEnd line.ending) :=
    fun c hMem => line.isGap_ending c
      (Command.dropLineEnd_subset _ hMem)
  rw [Command.ofLine, text, String.toList_ofList,
    Command.ofChars, line.dropLineEnd_line,
    findSome?_readers line.sameName_verb
      (endsWord_restOf line.attributes hEnding),
    forwardedAddress?_restOf line.attributes hEnding]
  rfl

------------------------------------------------------------
-- What Is Wanted
------------------------------------------------------------

/- No address comes before the place that is found. -/
theorem addressOf_eq
    (attributes : List Attribute) :
    addressOf attributes =
      (firstFound? attributes).bind fun (a, _, more) =>
      addressOf (a :: more) := by
  induction attributes with
  | nil => rfl
  | cons a more ih =>
      rw [firstFound?]
      cases hFound : a.found? with
      | some found => rfl
      | none =>
          have hOther : a.isAddress = false := by
            rw [Bool.eq_false_iff]
            intro hAddress
            rw [Attribute.found?_of_isAddress hAddress] at hFound
            cases hFound
          rw [addressOf, List.find?_cons_of_neg (by simp [hOther])]
          exact ih

/- The value is taken unless another word is taken for it. -/
theorem takenOf_value_iff
    (a : Attribute)
    (more : List Attribute) :
    takenOf a.value more = a.value? ↔
      a.value ≠ [] ∨ more = [] := by
  unfold takenOf Attribute.value?
  cases a.value with
  | cons c value => simp
  | nil => cases more <;> simp

theorem taken?_eq_iff
    (attributes : List Attribute) :
    taken? attributes = addressOf attributes ↔
      IsFoundInPlace attributes := by
  rw [addressOf_eq]
  unfold taken? IsFoundInPlace
  cases hFirst : firstFound? attributes with
  | none => simp
  | some first =>
      rcases first with ⟨a, found, more⟩
      have hFound := found?_of_firstFound? hFirst
      simp only [Option.bind_some, Option.some.injEq,
        Prod.mk.injEq, and_imp, addressOf]
      cases hAddress : a.isAddress with
      | true =>
          rw [Attribute.found?_of_isAddress hAddress] at hFound
          cases hFound
          simp [hAddress, takenOf_value_iff]
      | false => simp [hAddress]

/-
  What an XFORWARD command passes on, for every line of
  attributes: what follows the name of the address and its
  equals sign where they are first found. That is the value of
  the first address exactly if it is found in place.
-/
theorem ofLine_iff
    (line : Forwarding) :
    Command.ofLine line.text =
        .xforward (taken? line.attributes) ∧
      (Command.ofLine line.text =
          .xforward (addressOf line.attributes) ↔
        IsFoundInPlace line.attributes) := by
  refine ⟨line.ofLine_text, ?_⟩
  rw [line.ofLine_text, Command.xforward.injEq]
  exact taken?_eq_iff line.attributes

/- An attribute that is written after a single space. -/
def spaced
    (name value : String)
    (hPlain :
      IsSolid name.toList ∧
        '=' ∉ name.toList ∧
        IsSolid value.toList) : Attribute where
  gap := [' ']
  name := name.toList
  value := value.toList
  gap_ne_nil := by decide
  isGap_gap := by decide
  isSolid_name := hPlain.1
  equals_not_mem_name := hPlain.2.1
  isSolid_value := hPlain.2.2

/- A line with some attributes. -/
def ofAttributes
    (attributes : List Attribute) : Forwarding where
  verb := "XFORWARD"
  attributes := attributes
  ending := ['\r', '\n']
  sameName_verb := by decide +kernel
  isGap_ending := by decide

/- The address is found between other attributes. -/
theorem ofLine_addressInPlace :
    Command.ofLine
        "XFORWARD NAME=spike addr=192.0.2.1 PROTO=ESMTP\r\n" =
      .xforward (some "192.0.2.1") := by
  have hLine :=
    (ofAttributes [
      spaced "NAME" "spike" (by decide +kernel),
      spaced "addr" "192.0.2.1" (by decide +kernel),
      spaced "PROTO" "ESMTP" (by decide +kernel)]).ofLine_iff
  refine hLine.2.mpr ?_
  intro a found more hFirst
  cases hFirst
  exact Or.inl ⟨by decide +kernel, Or.inl (by decide +kernel)⟩

/-
  The end of another name, the value of another attribute and
  the attribute after an empty address are all passed on as
  the address.
-/
theorem ofLine_addressElsewhere :
    (∃ line : Forwarding,
        line.text = "XFORWARD SADDR=x ADDR=y\r\n" ∧
          addressOf line.attributes = some "y" ∧
          Command.ofLine line.text = .xforward (some "x")) ∧
      (∃ line : Forwarding,
        line.text = "XFORWARD IDENT=ADDR=x\r\n" ∧
          addressOf line.attributes = none ∧
          Command.ofLine line.text = .xforward (some "x")) ∧
      ∃ line : Forwarding,
        line.text = "XFORWARD ADDR= NAME=x\r\n" ∧
          addressOf line.attributes = none ∧
          Command.ofLine line.text =
            .xforward (some "NAME=x") := by
  refine ⟨⟨ofAttributes [
      spaced "SADDR" "x" (by decide +kernel),
      spaced "ADDR" "y" (by decide +kernel)], ?_⟩,
    ⟨ofAttributes [
      spaced "IDENT" "ADDR=x" (by decide +kernel)], ?_⟩,
    ⟨ofAttributes [
      spaced "ADDR" "" (by decide +kernel),
      spaced "NAME" "x" (by decide +kernel)], ?_⟩⟩
  all_goals
    refine ⟨?_, ?_, ?_⟩ <;> decide +kernel

end Forwarding

end Smtp

end MailFilter
