import MailFilter.Proofs.Message.Values

/-
  What a change of the headers does, and what two changes do
  one after the other.

  A change touches the fields that have its name, up to case,
  and may add a field at one end. Nothing else in the message
  is changed, so two changes of different names do the same
  in either order, except that the fields that they add at
  the same end stand in the order in which they were added.

  Key definitions include:
    * `Message.LackName`
    * `Message.IsSet`
    * `Message.IsRemoved`
    * `Message.Edit.atStart`
    * `Message.Edit.atEnd`
    * `Message.Edit.within`
    * `Message.Edit.Commutes`

  Main statements:
    * `Message.isSet_setHeader`
    * `Message.IsSet.unique`
    * `Message.IsSet.trans`
    * `Message.Edit.apply_eq`
    * `Message.Edit.within_comm`
    * `Message.edits_change_named`
-/

namespace MailFilter

namespace Message

------------------------------------------------------------
-- Fields Of Other Names
------------------------------------------------------------

/- None of the fields has the name. -/
def LackName
    (headers : List Header)
    (name : String) : Prop :=
  ∀ header ∈ headers, header.isNamed name = false

variable {name : String}
variable {headers : List Header}

/- So all of them are left if those of the name are dropped. -/
theorem lackName_iff_filter_eq :
    LackName headers name ↔
      headers.filter (!·.isNamed name) = headers := by
  rw [List.filter_eq_self]
  simp only [LackName, Bool.not_eq_true']

theorem lackName_iff_filter_eq_nil :
    LackName headers name ↔
      headers.filter (·.isNamed name) = [] := by
  rw [List.filter_eq_nil_iff]
  simp only [LackName, Bool.not_eq_true]

theorem lackName_iff_find?_eq_none :
    LackName headers name ↔
      headers.find? (·.isNamed name) = none := by
  rw [List.find?_eq_none]
  simp only [LackName, Bool.not_eq_true]

/- Dropping the fields of a name leaves none. -/
theorem lackName_filter
    (name : String)
    (headers : List Header) :
    LackName (headers.filter (!·.isNamed name)) name := by
  rw [lackName_iff_filter_eq, List.filter_filter]
  simp

theorem countHeader_eq_zero_iff
    {message : Message} :
    message.countHeader name = 0 ↔
      LackName message.headers name := by
  rw [countHeader, List.countP_eq_zero]
  simp only [LackName, Bool.not_eq_true]

------------------------------------------------------------
-- Setting A Field
------------------------------------------------------------

/-
  The one field of the name has the value. It stands where
  the first one did, with the name spelled as it was, or at
  the end. All other fields are as they were.
-/
structure IsSet
    (name value : String)
    (before after : Message) : Prop where
  values : after.values name = [value]
  place :
    after.headers.takeWhile (!·.isNamed name) =
      before.headers.takeWhile (!·.isNamed name)
  field :
    after.headers.find? (·.isNamed name) =
      some {
        name :=
          ((before.headers.find? (·.isNamed name)).map
            Header.name).getD name
        value := value }
  others :
    after.headers.filter (!·.isNamed name) =
      before.headers.filter (!·.isNamed name)
  bodyOffset : after.bodyOffset = before.bodyOffset
  crlf : after.crlf = before.crlf

/- What is seen of headers by the first one of a name. -/
theorem views_of_first
    {front : List Header}
    {first : Header}
    (hFront : LackName front name)
    (hFirst : first.isNamed name = true)
    (back : List Header) :
    (front ++ first :: back).takeWhile (!·.isNamed name) = front ∧
      (front ++ first :: back).find? (·.isNamed name) =
        some first ∧
      (front ++ first :: back).filter (·.isNamed name) =
        first :: back.filter (·.isNamed name) ∧
      (front ++ first :: back).filter (!·.isNamed name) =
        front ++ back.filter (!·.isNamed name) := by
  refine ⟨?_, ?_, ?_, ?_⟩
  · rw [List.takeWhile_append_of_pos
      (List.filter_eq_self.mp (lackName_iff_filter_eq.mp hFront))]
    simp [hFirst]
  · rw [List.find?_append, lackName_iff_find?_eq_none.mp hFront]
    simp [hFirst]
  · rw [List.filter_append,
      lackName_iff_filter_eq_nil.mp hFront]
    simp [hFirst]
  · rw [List.filter_append, lackName_iff_filter_eq.mp hFront]
    simp [hFirst]

theorem isSet_setHeader
    (message : Message)
    (name value : String) :
    IsSet name value message (message.setHeader name value) := by
  rcases message.setHeader_cases name value with
    ⟨hKept, hSet⟩
      | ⟨front, first, rest, hWhole, hKept, hFirst, hSet⟩
  · have hLack := lackName_iff_filter_eq.mpr hKept
    have hField :
        (⟨name, value, none⟩ : Header).isNamed name = true :=
      Text.sameName_refl name
    rcases views_of_first hLack hField [] with
      ⟨hPlace, hFind, hNamed, hOthers⟩
    rw [hSet]
    refine ⟨?_, ?_, ?_, ?_, rfl, rfl⟩
    · exact congrArg (List.map Header.value) hNamed
    · exact hPlace.trans
        (List.takeWhile_eq_self_iff.mpr
          (List.filter_eq_self.mp hKept)).symm
    · rw [lackName_iff_find?_eq_none.mp hLack]
      exact hFind
    · rw [hKept]
      exact hOthers.trans (List.append_nil _)
  · have hLack := lackName_iff_filter_eq.mpr hKept
    have hField : (first.setValue value).isNamed name = true :=
      hFirst
    rcases views_of_first hLack hFirst rest with
      ⟨hPlace, hFind, -, hOthers⟩
    rcases views_of_first hLack hField
        (rest.filter (!·.isNamed name)) with
      ⟨hPlaceSet, hFindSet, hNamedSet, hOthersSet⟩
    have hRest := lackName_filter name rest
    rw [← hWhole] at hPlace hFind hOthers
    rw [lackName_iff_filter_eq_nil.mp hRest] at hNamedSet
    rw [lackName_iff_filter_eq.mp hRest] at hOthersSet
    rw [hSet]
    refine ⟨?_, ?_, ?_, ?_, rfl, rfl⟩
    · exact congrArg (List.map Header.value) hNamedSet
    · exact hPlaceSet.trans hPlace.symm
    · rw [hFind]
      exact hFindSet
    · exact hOthersSet.trans hOthers.symm

namespace IsSet

variable {name value other : String}
variable {before middle after : Message}

/- What a message is like in which one field has the name. -/
theorem headers_eq
    (hSet : IsSet name value before after) :
    after.headers =
      before.headers.takeWhile (!·.isNamed name) ++
        {
          name :=
            ((before.headers.find? (·.isNamed name)).map
              Header.name).getD name
          value := value } ::
        (before.headers.filter (!·.isNamed name)).drop
          (before.headers.takeWhile (!·.isNamed name)).length := by
  rcases List.find?_eq_some_iff_append.mp hSet.field with
    ⟨hField, front, back, hWhole, hFront⟩
  have hLack : LackName front name :=
    lackName_iff_filter_eq.mpr (List.filter_eq_self.mpr hFront)
  rcases views_of_first hLack hField back with
    ⟨hPlace, -, hNamed, hOthers⟩
  have hBack : LackName back name := by
    have hValues := hSet.values
    rw [Message.values, hWhole, hNamed] at hValues
    rw [lackName_iff_filter_eq_nil]
    simpa using (List.cons.inj hValues).2
  rw [lackName_iff_filter_eq.mp hBack] at hOthers
  rw [← hSet.place, ← hSet.others, hWhole, hPlace, hOthers,
    List.drop_left]

/- So there is only one such message. -/
theorem unique
    {one : Message}
    (hSet : IsSet name value before after)
    (hOne : IsSet name value before one) :
    after = one := by
  have hHeaders : after.headers = one.headers :=
    hSet.headers_eq.trans hOne.headers_eq.symm
  have hBody : after.bodyOffset = one.bodyOffset :=
    hSet.bodyOffset.trans hOne.bodyOffset.symm
  have hCrlf : after.crlf = one.crlf :=
    hSet.crlf.trans hOne.crlf.symm
  cases after
  cases one
  cases hHeaders
  cases hBody
  cases hCrlf
  rfl

/- If a field is set twice, the second value counts. -/
theorem trans
    (hFirst : IsSet name other before middle)
    (hNext : IsSet name value middle after) :
    IsSet name value before after := by
  refine ⟨hNext.values, ?_, ?_, ?_, ?_, ?_⟩
  · exact hNext.place.trans hFirst.place
  · rw [hNext.field, hFirst.field]
    rfl
  · exact hNext.others.trans hFirst.others
  · exact hNext.bodyOffset.trans hFirst.bodyOffset
  · exact hNext.crlf.trans hFirst.crlf

end IsSet

theorem setHeader_setHeader
    (message : Message)
    (name other value : String) :
    (message.setHeader name other).setHeader name value =
      message.setHeader name value := by
  have hFirst := isSet_setHeader message name other
  have hNext :=
    isSet_setHeader (message.setHeader name other) name value
  exact (hFirst.trans hNext).unique
    (isSet_setHeader message name value)

------------------------------------------------------------
-- Removing Fields
------------------------------------------------------------

/-
  No field of the name is left, so many were dropped, and all
  other fields are as they were.
-/
structure IsRemoved
    (name : String)
    (count : Nat)
    (before after : Message) : Prop where
  values : after.values name = []
  others :
    after.headers.filter (!·.isNamed name) =
      before.headers.filter (!·.isNamed name)
  length : count + after.headers.length = before.headers.length
  bodyOffset : after.bodyOffset = before.bodyOffset
  crlf : after.crlf = before.crlf

theorem isRemoved_removeHeader
    (message : Message)
    (name : String) :
    IsRemoved name (message.countHeader name) message
      (message.removeHeader name) := by
  have hLack := lackName_filter name message.headers
  refine ⟨?_, ?_, ?_, rfl, rfl⟩
  · rw [values, removeHeader, List.map_eq_nil_iff]
    exact lackName_iff_filter_eq_nil.mp hLack
  · exact lackName_iff_filter_eq.mp hLack
  · rw [countHeader, List.countP_eq_length_filter]
    exact (List.length_eq_length_filter_add _).symm

theorem removeHeader_removeHeader
    (message : Message)
    (name : String) :
    (message.removeHeader name).removeHeader name =
      message.removeHeader name := by
  simp [removeHeader]

/- It does not matter what a field was set to. -/
theorem removeHeader_setHeader
    (message : Message)
    (name value : String) :
    (message.setHeader name value).removeHeader name =
      message.removeHeader name := by
  have hSet := isSet_setHeader message name value
  simp only [removeHeader, hSet.others, hSet.bodyOffset,
    hSet.crlf]

------------------------------------------------------------
-- The Parts Of A Change
------------------------------------------------------------

/-
  Give the first field of a name another value, if there is
  one, and drop the other ones.
-/
def setFirst
    (name value : String) : List Header → List Header
  | [] => []
  | header :: rest =>
      if header.isNamed name then
        header.setValue value :: rest.filter (!·.isNamed name)
      else
        header :: setFirst name value rest

theorem setFirst_append_left
    {front : List Header}
    (hLack : LackName front name)
    (value : String)
    (headers : List Header) :
    setFirst name value (front ++ headers) =
      front ++ setFirst name value headers := by
  induction front with
  | nil => rfl
  | cons header front ih =>
      rcases List.forall_mem_cons.mp hLack with ⟨hFirst, hMore⟩
      rw [List.cons_append, setFirst, hFirst, ih hMore]
      rfl

theorem setFirst_append_right
    {back : List Header}
    (hLack : LackName back name)
    (value : String)
    (headers : List Header) :
    setFirst name value (headers ++ back) =
      setFirst name value headers ++ back := by
  induction headers with
  | nil =>
      have hWhole := setFirst_append_left hLack value []
      rw [List.append_nil] at hWhole
      rw [List.nil_append, hWhole, setFirst, List.append_nil,
        List.nil_append]
  | cons header headers ih =>
      rw [List.cons_append, setFirst, setFirst, ih,
        List.filter_append, lackName_iff_filter_eq.mp hLack]
      split <;> rfl

namespace Edit

/- The fields that a change adds at the start. -/
def atStart : Edit → List Header
  | append _ _ => []
  | prepend name value => [⟨name, value, none⟩]
  | set _ _ => []
  | remove _ => []

/- The fields that a change adds at the end. -/
def atEnd
    (message : Message) : Edit → List Header
  | append name value => [⟨name, value, none⟩]
  | prepend _ _ => []
  | set name value =>
      if message.countHeader name = 0 then
        [⟨name, value, none⟩]
      else
        []
  | remove _ => []

/- What a change makes of the fields that there are. -/
def within
    (headers : List Header) : Edit → List Header
  | append _ _ => headers
  | prepend _ _ => headers
  | set name value => setFirst name value headers
  | remove name => headers.filter (!·.isNamed name)

/- A field that is set is one that was there or a new one. -/
theorem setHeader_eq
    (message : Message)
    (name value : String) :
    (message.setHeader name value).headers =
      setFirst name value message.headers ++
        (set name value).atEnd message := by
  rcases message.setHeader_cases name value with
    ⟨hKept, hSet⟩
      | ⟨front, first, rest, hWhole, hKept, hFirst, hSet⟩
  · have hLack := lackName_iff_filter_eq.mpr hKept
    have hSame := setFirst_append_left hLack value []
    rw [List.append_nil, setFirst, List.append_nil] at hSame
    rw [hSet, hSame, atEnd,
      if_pos (countHeader_eq_zero_iff.mpr hLack)]
    rfl
  · have hLack := lackName_iff_filter_eq.mpr hKept
    have hSome : ¬ message.countHeader name = 0 := by
      rw [countHeader_eq_zero_iff, LackName, hWhole]
      intro hNone
      have hNot := hNone first (by simp)
      rw [hFirst] at hNot
      cases hNot
    rw [hSet, atEnd, if_neg hSome, List.append_nil, hWhole,
      setFirst_append_left hLack, setFirst, if_pos hFirst]

/- A change consists of these parts. -/
theorem apply_eq
    (edit : Edit)
    (message : Message) :
    edit.apply message =
      { message with
        headers :=
          edit.atStart ++
            (edit.within message.headers ++
              edit.atEnd message) } := by
  cases edit with
  | append name value => rfl
  | prepend name value =>
      change message.prependHeader name value = _
      simp [prependHeader, atStart, within, atEnd]
  | set name value =>
      have hSet := isSet_setHeader message name value
      have hHeaders := setHeader_eq message name value
      change message.setHeader name value = _
      rw [atStart, List.nil_append, within, ← hHeaders]
      rw [← hSet.bodyOffset, ← hSet.crlf]
  | remove name =>
      change message.removeHeader name = _
      simp [removeHeader, atStart, within, atEnd]

end Edit

------------------------------------------------------------
-- Changes Of Different Names
------------------------------------------------------------

/- Dropping fields of another name can be done before. -/
theorem setFirst_filter
    {name other : String}
    (hNames : Text.sameName name other = false)
    (value : String)
    (headers : List Header) :
    setFirst name value (headers.filter (!·.isNamed other)) =
      (setFirst name value headers).filter
          (!·.isNamed other) := by
  induction headers with
  | nil => rfl
  | cons header headers ih =>
      cases hNamed : header.isNamed name with
      | true =>
          have hNot := Header.isNamed_of_not_sameName hNames hNamed
          have hNotSet :
              (header.setValue value).isNamed other = false :=
            hNot
          rw [List.filter_cons_of_pos (by simp [hNot]), setFirst,
            setFirst, if_pos hNamed, if_pos hNamed,
            List.filter_cons_of_pos (by simp [hNotSet]),
            List.filter_comm]
      | false =>
          rw [setFirst, hNamed]
          cases hOther : header.isNamed other with
          | true => simp [hOther, ih]
          | false => simp [hOther, setFirst, hNamed, ih]

/- So can setting one of another name. -/
theorem setFirst_comm
    {name other : String}
    (hNames : Text.sameName name other = false)
    (value given : String)
    (headers : List Header) :
    setFirst name value (setFirst other given headers) =
      setFirst other given (setFirst name value headers) := by
  have hSwapped : Text.sameName other name = false := by
    rw [Text.sameName_comm]
    exact hNames
  -- Past the first field of a name its others are dropped, so
  -- there the other change meets a filter.
  induction headers with
  | nil => rfl
  | cons header headers ih =>
      cases hNamed : header.isNamed name with
      | true =>
          have hNot := Header.isNamed_of_not_sameName hNames hNamed
          have hNotSet :
              (header.setValue value).isNamed other = false :=
            hNot
          simp [setFirst, hNamed, hNot, hNotSet,
            setFirst_filter hSwapped]
      | false =>
          cases hOther : header.isNamed other with
          | true =>
              have hNotSet :
                  (header.setValue given).isNamed name = false :=
                hNamed
              simp [setFirst, hNamed, hOther, hNotSet,
                setFirst_filter hNames]
          | false => simp [setFirst, hNamed, hOther, ih]

namespace Edit

variable {edit other : Edit}

/- What a change adds has its name only. -/
theorem lackName_atStart
    (hNames : Text.sameName edit.name other.name = false) :
    LackName edit.atStart other.name := by
  intro header hMem
  cases edit with
  | append name value => cases hMem
  | prepend name value =>
      rw [List.mem_singleton.mp hMem]
      exact hNames
  | set name value => cases hMem
  | remove name => cases hMem

theorem lackName_atEnd
    (hNames : Text.sameName edit.name other.name = false)
    (message : Message) :
    LackName (edit.atEnd message) other.name := by
  intro header hMem
  cases edit with
  | append name value =>
      rw [List.mem_singleton.mp hMem]
      exact hNames
  | prepend name value => cases hMem
  | set name value =>
      rw [atEnd] at hMem
      split at hMem
      · rw [List.mem_singleton.mp hMem]
        exact hNames
      · cases hMem
  | remove name => cases hMem

/- Fields without the name stay where they are. -/
theorem within_append
    {front back : List Header}
    (hFront : LackName front edit.name)
    (hBack : LackName back edit.name)
    (headers : List Header) :
    edit.within (front ++ (headers ++ back)) =
      front ++ (edit.within headers ++ back) := by
  cases edit with
  | append name value => rfl
  | prepend name value => rfl
  | set name value =>
      have hFrontNone : LackName front name := hFront
      have hBackNone : LackName back name := hBack
      change setFirst name value (front ++ (headers ++ back)) = _
      rw [setFirst_append_left hFrontNone,
        setFirst_append_right hBackNone]
      rfl
  | remove name =>
      change (front ++ (headers ++ back)).filter
        (!·.isNamed name) = _
      rw [List.filter_append, List.filter_append]
      exact congr
        (congrArg _ (lackName_iff_filter_eq.mp hFront))
        (congrArg _ (lackName_iff_filter_eq.mp hBack))

/- One case for each kind of change, for both of them. -/
theorem within_comm
    (hNames : Text.sameName edit.name other.name = false)
    (headers : List Header) :
    edit.within (other.within headers) =
      other.within (edit.within headers) := by
  have hSwapped : Text.sameName other.name edit.name = false := by
    rw [Text.sameName_comm]
    exact hNames
  cases edit with
  | append name value => rfl
  | prepend name value => rfl
  | set name value =>
      cases other with
      | append _ _ => rfl
      | prepend _ _ => rfl
      | set otherName given =>
          exact setFirst_comm hNames value given headers
      | remove otherName =>
          exact setFirst_filter hNames value headers
  | remove name =>
      cases other with
      | append _ _ => rfl
      | prepend _ _ => rfl
      | set otherName given =>
          exact (setFirst_filter hSwapped given headers).symm
      | remove otherName => exact List.filter_comm ..

/- The fields of another name have the values they had. -/
theorem values_apply
    (hNames : Text.sameName edit.name other.name = false)
    (message : Message) :
    (edit.apply message).values other.name =
      message.values other.name := by
  cases edit with
  | append name value =>
      have hNot :
          (⟨name, value, none⟩ : Header).isNamed other.name =
            false :=
        hNames
      simp [apply, appendHeader, values, hNot]
  | prepend name value =>
      have hNot :
          (⟨name, value, none⟩ : Header).isNamed other.name =
            false :=
        hNames
      simp [apply, prependHeader, values, hNot]
  | set name value =>
      exact values_setHeader_of_not_sameName hNames message value
  | remove name =>
      exact congrArg (List.map Header.value)
        (filter_isNamed_of_not_sameName hNames message.headers)

/- So they are as many, and it is the same that is missing. -/
theorem countHeader_apply
    (hNames : Text.sameName edit.name other.name = false)
    (message : Message) :
    (edit.apply message).countHeader other.name =
      message.countHeader other.name := by
  have hLength :
      ∀ message : Message,
        message.countHeader other.name =
          (message.values other.name).length := by
    intro message
    rw [countHeader, values, List.length_map,
      List.countP_eq_length_filter]
  rw [hLength, hLength, values_apply hNames]

theorem atEnd_apply
    (hNames : Text.sameName edit.name other.name = false)
    (message : Message) :
    other.atEnd (edit.apply message) = other.atEnd message := by
  cases other with
  | append name value => rfl
  | prepend name value => rfl
  | set name value =>
      have hCount := countHeader_apply hNames message
      simp only [Edit.name] at hCount
      rw [atEnd, atEnd, hCount]
  | remove name => rfl

theorem removed?_apply
    (hNames : Text.sameName edit.name other.name = false)
    (message : Message) :
    other.removed? (edit.apply message) =
      other.removed? message := by
  cases other with
  | append name value => rfl
  | prepend name value => rfl
  | set name value => rfl
  | remove name =>
      exact congrArg some (countHeader_apply hNames message)

/- Two changes, one after the other. -/
theorem apply_apply
    (hNames : Text.sameName edit.name other.name = false)
    (message : Message) :
    other.apply (edit.apply message) =
      { message with
        headers :=
          other.atStart ++ edit.atStart ++
            other.within (edit.within message.headers) ++
            edit.atEnd message ++ other.atEnd message } := by
  have hWithin :=
    within_append (lackName_atStart hNames)
      (lackName_atEnd hNames message)
      (edit.within message.headers)
  have hEnd := atEnd_apply hNames message
  rw [other.apply_eq, hEnd, edit.apply_eq]
  simp only [hWithin, List.append_assoc]

/-
  The changes do the same in either order, except that what
  both add at the same end stands in that order. And neither
  makes a difference to how many fields the other removes.
-/
structure Commutes
    (edit other : Edit)
    (message : Message) : Prop where
  headers :
    ∃ kept,
      other.apply (edit.apply message) =
          { message with
            headers :=
              other.atStart ++ edit.atStart ++ kept ++
                edit.atEnd message ++ other.atEnd message } ∧
        edit.apply (other.apply message) =
          { message with
            headers :=
              edit.atStart ++ other.atStart ++ kept ++
                other.atEnd message ++ edit.atEnd message }
  same :
    edit.atStart = [] ∨ other.atStart = [] →
    edit.atEnd message = [] ∨ other.atEnd message = [] →
      other.apply (edit.apply message) =
        edit.apply (other.apply message)
  removed :
    other.removed? (edit.apply message) = other.removed? message ∧
      edit.removed? (other.apply message) =
        edit.removed? message

theorem commutes_of_not_sameName
    (hNames : Text.sameName edit.name other.name = false)
    (message : Message) :
    edit.Commutes other message := by
  have hSwapped : Text.sameName other.name edit.name = false := by
    rw [Text.sameName_comm]
    exact hNames
  have hAfter := apply_apply hNames message
  have hBefore := apply_apply hSwapped message
  rw [within_comm hNames] at hBefore
  refine ⟨⟨_, hAfter, hBefore⟩, ?_,
    removed?_apply hNames message,
    removed?_apply hSwapped message⟩
  intro hStart hEnd
  rw [hAfter, hBefore]
  have hStarts :
      other.atStart ++ edit.atStart =
        edit.atStart ++ other.atStart := by
    rcases hStart with hNone | hNone <;> simp [hNone]
  have hEnds :
      edit.atEnd message ++ other.atEnd message =
        other.atEnd message ++ edit.atEnd message := by
    rcases hEnd with hNone | hNone <;> simp [hNone]
  rw [hStarts, List.append_assoc _ (edit.atEnd message), hEnds,
    ← List.append_assoc]

end Edit

/-
  Setting and removing fields changes those of the name and
  no other ones. Doing it twice is doing it once, removing a
  field undoes setting it, and changes of different names do
  not depend on each other.
-/
theorem edits_change_named
    (message : Message)
    (name value : String) :
    IsSet name value message (message.setHeader name value) ∧
      IsRemoved name (message.countHeader name) message
        (message.removeHeader name) ∧
      (message.setHeader name value).setHeader name value =
        message.setHeader name value ∧
      (message.removeHeader name).removeHeader name =
        message.removeHeader name ∧
      (message.setHeader name value).removeHeader name =
        message.removeHeader name ∧
      ∀ edit other : Edit,
        Text.sameName edit.name other.name = false →
          edit.Commutes other message := by
  refine ⟨message.isSet_setHeader name value,
    message.isRemoved_removeHeader name,
    message.setHeader_setHeader name value value,
    message.removeHeader_removeHeader name,
    message.removeHeader_setHeader name value, ?_⟩
  intro edit other hNames
  exact Edit.commutes_of_not_sameName hNames message

/- The field "a" is set, which is spelled "A" and "a" before. -/
theorem edits_change_named_spellings :
    let message : Message := {
      headers := [⟨"A", "1", none⟩, ⟨"B", "2", none⟩,
        ⟨"a", "3", none⟩]
      bodyOffset := 0
      crlf := false }
    let set := Edit.set "a" "4"
    let added := Edit.append "X" "5"
    Text.sameName set.name added.name = false ∧
      set.Commutes added message ∧
      (added.apply (set.apply message)).headers =
        [⟨"A", "4", none⟩, ⟨"B", "2", none⟩, ⟨"X", "5", none⟩] ∧
      IsSet "a" "4" message (set.apply message) := by
  intro message set added
  have hNames : Text.sameName set.name added.name = false := by
    decide +kernel
  rcases edits_change_named message "a" "4" with
    ⟨hSet, -, -, -, -, hCommutes⟩
  exact ⟨hNames, hCommutes set added hNames, by decide +kernel,
    hSet⟩

end Message

end MailFilter
