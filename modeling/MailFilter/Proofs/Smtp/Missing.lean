import MailFilter.Proofs.Message.Sound
import MailFilter.Proofs.Smtp.HeaderBlock
import MailFilter.Smtp.Completion

/-
  A receiver finds that a field is missing if the header
  block has no field of that name.

  Names are compared as text up to case, while the receiver
  compares bytes that it brought to lower case.

  Key definitions include:
    * `Smtp.Completion.standard`
    * `Smtp.standardNames`
    * `Smtp.hasField`

  Main statements:
    * `Header.isNamed_ofField`
    * `Smtp.missing_seen`
-/

namespace MailFilter

open Bytes

namespace Header

------------------------------------------------------------
-- Names
------------------------------------------------------------

theorem toNat_toLower
    (b : UInt8) :
    (Bytes.toLower b).toNat =
      if 65 ≤ b.toNat ∧ b.toNat ≤ 90 then b.toNat + 32
        else b.toNat := by
  have hRange :
      (65 ≤ b && b ≤ 90) = true ↔
        65 ≤ b.toNat ∧ b.toNat ≤ 90 := by
    simp only [Bool.and_eq_true, decide_eq_true_eq,
      UInt8.le_iff_toNat_le]
    rfl
  unfold Bytes.toLower
  by_cases hUpper : 65 ≤ b.toNat ∧ b.toNat ≤ 90
  · rw [if_pos (hRange.mpr hUpper), if_pos hUpper,
      UInt8.toNat_add]
    have hGap : (32 : UInt8).toNat = 32 := rfl
    rw [hGap]
    omega
  · rw [if_neg (fun h => hUpper (hRange.mp h)), if_neg hUpper]

theorem toNat_ofNat_byte
    (b : UInt8) :
    (Char.ofNat b.toNat).toNat = b.toNat := by
  have hSmall := b.toNat_lt
  exact Utf8.toNat_ofNat_of_isValidChar (Or.inl (by omega))

theorem char_eq_of_toNat_eq
    {c d : Char}
    (hNat : c.toNat = d.toNat) :
    c = d := by
  rw [← Char.ofNat_toNat c, hNat, Char.ofNat_toNat]

/- Bytes and characters are brought to lower case alike. -/
theorem lower_nameText
    (name : Bytes) :
    Text.lower (nameText name) =
      nameText (name.map Bytes.toLower) := by
  simp only [Text.lower, nameText, String.toList_ofList,
    List.map_map]
  congr 1
  apply List.map_congr_left
  intro b _
  apply char_eq_of_toNat_eq
  simp only [Function.comp_apply]
  rw [Text.toNat_toLower, toNat_ofNat_byte, toNat_ofNat_byte,
    toNat_toLower]

/- Other bytes make another name. -/
theorem nameText_inj
    {first second : Bytes} :
    nameText first = nameText second ↔ first = second := by
  constructor
  · intro hSame
    have hChars := congrArg String.toList hSame
    simp only [nameText, String.toList_ofList] at hChars
    refine List.map_injective_iff.mpr ?_ hChars
    intro b c hEq
    have hNat := congrArg Char.toNat hEq
    rw [toNat_ofNat_byte, toNat_ofNat_byte] at hNat
    exact UInt8.toNat_inj.mp hNat
  · rintro rfl
    rfl

/- A field has a name if its bytes are those of the name. -/
theorem isNamed_ofField
    (entry : Bytes)
    {name : String}
    (hAscii : ∀ c ∈ (Text.lower name).toList, c.toNat < 0x80) :
    (ofField entry).isNamed name =
      ((entry.takeWhile (· != colon)).map Bytes.toLower ==
          Utf8.encode (Text.lower name)) := by
  rw [Bool.eq_iff_iff, beq_iff_eq, isNamed, Text.sameName_iff]
  change Text.lower (nameText (entry.takeWhile (· != colon))) =
    _ ↔ _
  rw [lower_nameText, ← nameText_inj, nameText_encode hAscii]

end Header

namespace Smtp

open Header

------------------------------------------------------------
-- What Is Missing
------------------------------------------------------------

/- The fields that every message needs. -/
def Completion.standard
    (completion : Completion)
    (stamp : Stamp) : List (String × String) :=
  [ ("Message-Id",
      "<" ++ stamp.unique ++ "@" ++ completion.hostname ++ ">"),
    ("Date", stamp.date),
    ("From",
      match completion.sender with
      | some sender => "<" ++ sender ++ ">"
      | none => "MAILER-DAEMON@" ++ completion.hostname),
    ("To", "undisclosed-recipients:;") ]

/- The names of the fields that every message needs. -/
def standardNames : List String :=
  ["Message-Id", "Date", "From", "To"]

theorem map_fst_standard
    (completion : Completion)
    (stamp : Stamp) :
    (completion.standard stamp).map Prod.fst = standardNames :=
  rfl

/- Some field has the name. -/
def hasField
    (fields : List Bytes)
    (name : String) : Bool :=
  fields.any fun entry => (ofField entry).isNamed name

/- What a field adds to what is noted. -/
theorem record_flags
    (seen : Seen)
    (name : Bytes) :
    (seen.record name).messageId =
        (seen.messageId ||
          name == Utf8.encode "message-id") ∧
      (seen.record name).date =
        (seen.date || name == Utf8.encode "date") ∧
      (seen.record name).recipient =
        (seen.recipient || name == Utf8.encode "to") ∧
      (seen.record name).sender =
        (seen.sender ||
          name == Utf8.encode "from") := by
  unfold Seen.record
  dsimp only
  split
  · rename_i hName
    subst hName
    simp +decide
  · split
    · rename_i hName
      subst hName
      simp +decide
    · split
      · rename_i hName
        subst hName
        simp +decide
      · split
        · rename_i hName
          subst hName
          simp +decide
        · simp_all

/- What is noted of a field is whether the block has it. -/
theorem seenIn_flags
    (fields : List Bytes)
    (seen : Seen) :
    (seenIn fields seen).messageId =
        (seen.messageId || hasField fields "Message-Id") ∧
      (seenIn fields seen).date =
        (seen.date || hasField fields "Date") ∧
      (seenIn fields seen).recipient =
        (seen.recipient || hasField fields "To") ∧
      (seenIn fields seen).sender =
        (seen.sender || hasField fields "From") := by
  induction fields generalizing seen with
  | nil => simp [seenIn, hasField]
  | cons entry fields ih =>
      have hStep := record_flags seen
        ((fieldName entry).map toLower)
      have hRest := ih
        (seen.record ((fieldName entry).map toLower))
      have hCons :
          seenIn (entry :: fields) seen =
            seenIn fields (seen.record
                ((fieldName entry).map toLower)) :=
        rfl
      have hAny :
          ∀ name, hasField (entry :: fields) name =
            ((ofField entry).isNamed name ||
              hasField fields name) :=
        fun name => rfl
      have hNamed :
          ∀ name : String,
            (Text.lower name).toList.all (·.toNat < 0x80) →
            (ofField entry).isNamed name =
              ((fieldName entry).map toLower ==
                Utf8.encode (Text.lower name)) := by
        intro name hAll
        have hAscii :
            ∀ c ∈ (Text.lower name).toList, c.toNat < 0x80 :=
          fun c hMem =>
            of_decide_eq_true (List.all_eq_true.mp hAll c hMem)
        exact isNamed_ofField entry hAscii
      have hId := hNamed "Message-Id" rfl
      have hDate := hNamed "Date" rfl
      have hTo := hNamed "To" rfl
      have hFrom := hNamed "From" rfl
      rw [hCons, hAny, hAny, hAny, hAny, hId, hDate, hTo,
        hFrom]
      rw [hStep.1, hStep.2.1, hStep.2.2.1, hStep.2.2.2,
        Bool.or_assoc, Bool.or_assoc, Bool.or_assoc,
        Bool.or_assoc] at hRest
      exact hRest

/- The fields that a receiver finds missing are missing. -/
theorem missing_seen
    (completion : Completion)
    (stamp : Stamp)
    (fields left : List Bytes) :
    completion.missing stamp (noteEnd left (seenIn fields {})) =
      (completion.standard stamp).filter
          fun field => !hasField fields field.1 := by
  have hFlags := seenIn_flags fields {}
  simp only [Bool.false_or] at hFlags
  rcases hFlags with ⟨hId, hDate, hTo, hFrom⟩
  have hSame :
      ∀ seen : Seen,
        completion.missing stamp (noteEnd left seen) =
          completion.missing stamp seen := by
    intro seen
    unfold noteEnd
    split <;> rfl
  have hFilter :
      ∀ fields' : List (String × String),
        ((fields'.map fun field =>
            (hasField fields field.1, field)).filterMap
          fun flagged =>
            if flagged.1 then none else some flagged.2) =
          fields'.filter fun field =>
            !hasField fields field.1 := by
    intro fields'
    induction fields' with
    | nil => rfl
    | cons field rest ih =>
        rw [List.map_cons, List.filterMap_cons, ih,
          List.filter_cons]
        cases hasField fields field.1 <;> rfl
  rw [hSame, ← hFilter, Completion.missing, hId, hDate, hTo,
    hFrom]
  rfl

end Smtp

end MailFilter
