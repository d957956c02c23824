import MailFilter.Message.Edit
import MailFilter.Proofs.Message.ReadBack

/-
  What a change of the headers does to the values that the
  fields of a name have.

  A change that neither sets nor removes fields of the name
  can only add one.

  Key definitions include:
    * `Message.Edit.Spares`
    * `Message.Edit.Adds`

  Main statements:
    * `Message.mem_values_of_perm`
    * `Message.mem_values_apply`
-/

namespace MailFilter

------------------------------------------------------------
-- Values
------------------------------------------------------------

/- Two names that are not the same name no field has both. -/
theorem Header.isNamed_of_not_sameName
    {name other : String}
    (hOther : Text.sameName name other = false)
    {header : Header}
    (hNamed : header.isNamed name = true) :
    header.isNamed other = false := by
  rw [Bool.eq_false_iff] at hOther ⊢
  intro hBoth
  apply hOther
  rw [Text.sameName_iff]
  exact (Text.sameName_iff.mp hNamed).symm.trans
    (Text.sameName_iff.mp hBoth)

namespace Message

theorem mem_values_iff
    {message : Message}
    {name value : String} :
    value ∈ message.values name ↔
      (Text.lower name, value) ∈ message.entries := by
  simp only [values, entries, List.mem_map, List.mem_filter,
    Header.isNamed, Text.sameName_iff, Prod.mk.injEq]
  constructor
  · rintro ⟨header, ⟨hMem, hName⟩, hValue⟩
    exact ⟨header, hMem, hName, hValue⟩
  · rintro ⟨header, hMem, hName, hValue⟩
    exact ⟨header, ⟨hMem, hName⟩, hValue⟩

theorem values_of_headers_eq
    {message other : Message}
    (hSame : message.headers = other.headers)
    (name : String) :
    message.values name = other.values name := by
  rw [values, values, hSame]

theorem mem_values_of_perm
    {message other : Message}
    (hPerm : message.entries.Perm other.entries)
    (name value : String) :
    value ∈ message.values name ↔
      value ∈ other.values name := by
  rw [mem_values_iff, mem_values_iff, hPerm.mem_iff]

/- So no field is dropped that another name is looked for in. -/
theorem filter_isNamed_of_not_sameName
    {name other : String}
    (hOther : Text.sameName other name = false)
    (headers : List Header) :
    (headers.filter (!·.isNamed other)).filter (·.isNamed name) =
      headers.filter (·.isNamed name) := by
  have hSwapped : Text.sameName name other = false := by
    rw [Text.sameName_comm]
    exact hOther
  rw [List.filter_filter]
  apply List.filter_congr
  intro header _
  cases hNamed : header.isNamed name with
  | false => rfl
  | true =>
      rw [Bool.true_and, Bool.not_eq_true']
      exact Header.isNamed_of_not_sameName hSwapped hNamed

/- Setting a field leaves those of other names. -/
theorem values_setHeader_of_not_sameName
    {name other : String}
    (hOther : Text.sameName other name = false)
    (message : Message)
    (value : String) :
    (message.setHeader other value).values name =
      message.values name := by
  have hSame := filter_isNamed_of_not_sameName hOther
  rcases message.setHeader_cases other value with
    ⟨_, hSet⟩ | ⟨front, first, rest, hWhole, _, hFirst, hSet⟩
  · rw [hSet]
    simp [values, appendHeader, Header.isNamed, hOther]
  · have hNot : first.isNamed name = false := by
      have hSkip := hSame [first]
      simpa [hFirst] using hSkip.symm
    have hAgain : (first.setValue value).isNamed name = false :=
      hNot
    rw [hSet, values, values, hWhole]
    simp only [List.filter_append, List.filter_cons, hAgain,
      hNot, hSame]
    rfl

namespace Edit

/- The change neither sets nor removes fields of a name. -/
def Spares
    (name : String) : Edit → Prop
  | append _ _ => True
  | prepend _ _ => True
  | set other _ => Text.sameName other name = false
  | remove other => Text.sameName other name = false

/- The change adds a field. -/
def Adds
    (name value : String) : Edit → Prop
  | append other given =>
      Text.sameName other name = true ∧ given = value
  | prepend other given =>
      Text.sameName other name = true ∧ given = value
  | set _ _ => False
  | remove _ => False

end Edit

/- One case for each kind of change. -/
theorem mem_values_apply
    {name : String}
    {edit : Edit}
    (hSpares : edit.Spares name)
    (message : Message)
    (value : String) :
    value ∈ (edit.apply message).values name ↔
      value ∈ message.values name ∨
        edit.Adds name value := by
  cases edit with
  | append other given =>
      simp only [Edit.apply, appendHeader, values, Edit.Adds,
        List.filter_append, List.map_append, List.mem_append]
      cases hSame : Text.sameName other name with
      | true => simp [Header.isNamed, hSame, @eq_comm _ value]
      | false => simp [Header.isNamed, hSame]
  | prepend other given =>
      simp only [Edit.apply, prependHeader, values, Edit.Adds,
        List.filter_cons, Header.isNamed]
      cases hSame : Text.sameName other name with
      | true =>
          simp only [if_true, List.map_cons, List.mem_cons,
            true_and, @eq_comm _ value]
          exact or_comm
      | false => simp
  | set other given =>
      rw [Edit.apply,
        values_setHeader_of_not_sameName hSpares]
      simp [Edit.Adds]
  | remove other =>
      rw [Edit.apply, removeHeader, values,
        filter_isNamed_of_not_sameName hSpares]
      simp [Edit.Adds, values]

end Message

end MailFilter
