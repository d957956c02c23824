import MailFilter.Proofs.Text.Decimal
import MailFilter.Settings.Decode
import Mathlib.Data.List.Nodup

/-
  Which reply texts of the settings are used.

  A text is kept if its key is read as one of the codes that
  may have a text, in whatever way the number is written. But
  it is looked up under the digits of the code alone. So a
  text that is kept is used only if its key is written that
  way too, or another key is.

  Key definitions include:
    * `Settings.IsTextCode`
    * `Settings.Spells`
    * `Settings.Gives`
    * `Settings.IsHeeded`

  Main statements:
    * `Settings.isTextKey_iff`
    * `Settings.replyText_keepTextKeys`
    * `Settings.gives_keepTextKeys_iff`
    * `Settings.isHeeded_iff`
-/

namespace MailFilter.Settings

------------------------------------------------------------
-- Keys
------------------------------------------------------------

/- A code that may have a text. -/
def IsTextCode
    (n : Nat) : Prop :=
  401 ≤ n ∧ n ≤ 599

instance
    (n : Nat) :
    Decidable (IsTextCode n) :=
  inferInstanceAs (Decidable (_ ∧ _))

/- The key is a way to write the number. -/
def Spells
    (key : String)
    (n : Nat) : Prop :=
  ∃ signed zeros, key.toList = Decimal.spelling signed zeros n

theorem spells_iff
    {key : String}
    {n : Nat} :
    Spells key n ↔ Decimal.read? key.toList = some n :=
  Decimal.read?_eq_some_iff.symm

/- No key is a way to write two numbers. -/
theorem Spells.eq
    {key : String}
    {n m : Nat}
    (hFirst : Spells key n)
    (hSecond : Spells key m) :
    n = m := by
  rw [spells_iff] at hFirst hSecond
  exact Option.some.inj (hFirst.symm.trans hSecond)

theorem spells_toString
    (n : Nat) :
    Spells (toString n) n := by
  refine ⟨false, 0, ?_⟩
  rw [Decimal.spelling_eq_toDigits_iff.mpr ⟨rfl, rfl⟩]
  exact String.toList_ofList

/- A key is kept if it is a way to write one of the codes. -/
theorem isTextKey_iff
    {key : String} :
    IsTextKey key ↔ ∃ n, Spells key n ∧ IsTextCode n := by
  constructor
  · rintro ⟨n, hRead, hCode⟩
    have hSpells :=
      spells_iff.mpr (Decimal.readWord?_eq_some_iff.mp hRead).2
    exact ⟨n, hSpells, hCode⟩
  · rintro ⟨n, hSpells, hCode⟩
    have hFits : n < 2 ^ 32 := by
      have hLast := hCode.2
      omega
    exact ⟨n,
      Decimal.readWord?_eq_some_iff.mpr
        ⟨hFits, spells_iff.mp hSpells⟩,
      hCode⟩

------------------------------------------------------------
-- Texts
------------------------------------------------------------

/- The settings have a text under the key. -/
def Gives
    (settings : Settings)
    (key text : String) : Prop :=
  (key, text) ∈ settings.smtpd.codes

instance
    (settings : Settings)
    (key text : String) :
    Decidable (settings.Gives key text) :=
  inferInstanceAs (Decidable (_ ∈ _))

/- What is said for a status is a text that is given for it. -/
def IsHeeded
    (settings : Settings)
    (status : Status) : Prop :=
  ∃ key text,
    settings.replyText status = some text ∧
      settings.Gives key text ∧
      Spells key status.code

/- Texts are looked up under the digits of a code. -/
theorem gives_of_replyText
    {settings : Settings}
    {status : Status}
    {text : String}
    (hText : settings.replyText status = some text) :
    settings.Gives (toString status.code) text := by
  rcases List.lookup_eq_some_iff.mp hText with
    ⟨before, after, hSplit, -⟩
  unfold Gives
  rw [hSplit]
  simp

theorem exists_replyText
    {settings : Settings}
    {status : Status}
    {text : String}
    (hGives : settings.Gives (toString status.code) text) :
    ∃ other, settings.replyText status = some other := by
  cases hText : settings.replyText status with
  | some other => exact ⟨other, rfl⟩
  | none =>
      have hNone := List.lookup_eq_none_iff.mp hText _ hGives
      simp at hNone

/- If no key is there twice, it is that text. -/
theorem replyText_eq_some_iff
    {settings : Settings}
    (hOnce : (settings.smtpd.codes.map Prod.fst).Nodup)
    {status : Status}
    {text : String} :
    settings.replyText status = some text ↔
      settings.Gives (toString status.code) text := by
  refine ⟨gives_of_replyText, fun hGives => ?_⟩
  rcases exists_replyText hGives with ⟨other, hOther⟩
  have hSame :=
    List.inj_on_of_nodup_map hOnce hGives
      (gives_of_replyText hOther) rfl
  rw [hOther, (Prod.mk.inj hSame).2]

/- So a status is heeded if its digits are one of the keys. -/
theorem isHeeded_iff
    {settings : Settings}
    {status : Status} :
    settings.IsHeeded status ↔
      ∃ text, settings.Gives (toString status.code) text := by
  constructor
  · rintro ⟨key, text, hText, -, -⟩
    exact ⟨text, gives_of_replyText hText⟩
  · rintro ⟨text, hGives⟩
    rcases exists_replyText hGives with ⟨other, hOther⟩
    exact ⟨_, other, hOther, gives_of_replyText hOther,
      spells_toString status.code⟩

------------------------------------------------------------
-- Texts That Are Kept
------------------------------------------------------------

/- A text is kept with its key or not at all. -/
theorem gives_keepTextKeys_iff
    {given : Settings}
    {key text : String} :
    given.keepTextKeys.Gives key text ↔
      given.Gives key text ∧
        ∃ n, Spells key n ∧ IsTextCode n := by
  rw [← isTextKey_iff]
  simp [Gives, keepTextKeys]

theorem mem_unknownKeys_iff
    {given : Settings}
    {key : String} :
    key ∈ given.unknownKeys ↔
      (∃ text, given.Gives key text) ∧
        ¬ ∃ n, Spells key n ∧ IsTextCode n := by
  rw [← isTextKey_iff]
  simp [Gives, unknownKeys]

/- The texts of the other codes cannot be replaced. -/
theorem replyText_keepTextKeys
    (given : Settings)
    {status : Status}
    (hCode : ¬ IsTextCode status.code) :
    given.keepTextKeys.replyText status = none := by
  rw [Option.eq_none_iff_forall_not_mem]
  intro text hText
  rcases gives_keepTextKeys_iff.mp (gives_of_replyText hText) with
    ⟨-, n, hSpells, hOther⟩
  rw [hSpells.eq (spells_toString status.code)] at hOther
  exact hCode hOther

theorem isHeeded_keepTextKeys_iff
    {given : Settings}
    {status : Status}
    (hCode : IsTextCode status.code) :
    given.keepTextKeys.IsHeeded status ↔
      ∃ text, given.Gives (toString status.code) text := by
  rw [isHeeded_iff]
  refine exists_congr fun text => ?_
  rw [gives_keepTextKeys_iff, and_iff_left]
  exact ⟨_, spells_toString status.code, hCode⟩

/-
  What becomes of the reply texts when settings are read. A
  text is kept exactly if its key is a way to write one of the
  codes from 401 to 599, and all others are warned of. No text
  is used for another code. For the code of a text that is
  kept a text of the settings is used exactly if the digits of
  the code, without a sign or zeros in front, are one of the
  keys, and it is the text that stands under these digits.
-/
theorem replyTexts_iff
    {text : String}
    {root : Toml.Entries}
    {given : Settings}
    (hRoot : Toml.parse? text = some root)
    (hGiven : decode? root = some given) :
    ∃ settings unknown,
      parse? text = some (settings, unknown) ∧
        (∀ key reply,
          settings.Gives key reply ↔
            given.Gives key reply ∧
              ∃ n, Spells key n ∧ IsTextCode n) ∧
        (∀ key,
          key ∈ unknown ↔
            (∃ reply, given.Gives key reply) ∧
              ¬ ∃ n, Spells key n ∧ IsTextCode n) ∧
        (∀ status : Status,
          ¬ IsTextCode status.code →
            settings.replyText status = none) ∧
        (∀ key reply (status : Status),
          settings.Gives key reply →
            Spells key status.code →
              (settings.IsHeeded status ↔
                  ∃ other,
                    given.Gives (toString status.code) other) ∧
                ((given.smtpd.codes.map Prod.fst).Nodup →
                  (settings.replyText status = some reply ↔
                    given.Gives (toString status.code)
                      reply))) := by
  have hParse :
      parse? text =
        some (given.keepTextKeys, given.unknownKeys) := by
    simp [parse?, hRoot, hGiven]
  refine ⟨_, _, hParse, fun _ _ => gives_keepTextKeys_iff,
    fun _ => mem_unknownKeys_iff,
    fun _ hCode => replyText_keepTextKeys given hCode, ?_⟩
  intro key reply status hGives hSpells
  rcases gives_keepTextKeys_iff.mp hGives with
    ⟨-, n, hNumber, hRange⟩
  have hCode : IsTextCode status.code := by
    rwa [hSpells.eq hNumber]
  refine ⟨isHeeded_keepTextKeys_iff hCode, fun hOnce => ?_⟩
  have hLess :
      (given.keepTextKeys.smtpd.codes.map Prod.fst).Sublist
        (given.smtpd.codes.map Prod.fst) :=
    List.filter_sublist.map Prod.fst
  rw [replyText_eq_some_iff (hOnce.sublist hLess),
    gives_keepTextKeys_iff, and_iff_left]
  exact ⟨_, spells_toString status.code, hCode⟩

/- A text for the code 450. -/
def plainText : String :=
  "[smtpd]\n450 = \"Busy\"\n"

/- It is used for that, and for no code below 401. -/
theorem replyTexts_plain :
    ∃ settings unknown,
      parse? plainText = some (settings, unknown) ∧
        settings.IsHeeded (.ofCode 450) ∧
        settings.replyText (.ofCode 450) = some "Busy" ∧
        settings.replyText .ok = none := by
  let given : Settings :=
    { smtpd := { codes := [("450", "Busy")] } }
  have hRead :
      (Toml.parse? plainText).bind decode? = some given := by
    decide +kernel
  rcases Option.bind_eq_some_iff.mp hRead with
    ⟨root, hRoot, hGiven⟩
  rcases replyTexts_iff hRoot hGiven with
    ⟨settings, unknown, hParse, hKept, -, hOther, hHeeded⟩
  have hSpells : Spells "450" 450 :=
    spells_iff.mpr (by decide +kernel)
  have hFirst : given.Gives "450" "Busy" :=
    List.mem_singleton.mpr rfl
  have hBusy : settings.Gives "450" "Busy" :=
    (hKept _ _).mpr ⟨hFirst, 450, hSpells, by decide⟩
  have hDigits : toString (Status.ofCode 450).code = "450" := by
    decide +kernel
  have hCode : Spells "450" (Status.ofCode 450).code :=
    spells_iff.mpr (by decide +kernel)
  rcases hHeeded _ _ _ hBusy hCode with ⟨hUsed, hSame⟩
  rw [hDigits] at hUsed hSame
  exact ⟨settings, unknown, hParse,
    hUsed.mpr ⟨"Busy", hFirst⟩,
    (hSame (List.nodup_singleton _)).mpr hFirst,
    hOther .ok (by decide)⟩

/- A text for a code with a zero in front. -/
def paddedText : String :=
  "[smtpd]\n0450 = \"Busy\"\n"

/-
  It is kept without a warning for the code 450, and it is
  not used for that.
-/
theorem not_isHeeded_padded :
    ∃ settings,
      parse? paddedText = some (settings, []) ∧
        settings.Gives "0450" "Busy" ∧
        Spells "0450" 450 ∧
        IsTextCode 450 ∧
        ¬ settings.IsHeeded (.ofCode 450) := by
  have hDigits : toString (Status.ofCode 450).code = "450" := by
    decide +kernel
  refine ⟨{ smtpd := { codes := [("0450", "Busy")] } },
    by decide +kernel, List.mem_singleton.mpr rfl,
    spells_iff.mpr (by decide +kernel), by decide, ?_⟩
  rw [isHeeded_iff, hDigits]
  rintro ⟨text, hGives⟩
  have hSame : "450" = "0450" :=
    congrArg Prod.fst (List.mem_singleton.mp hGives)
  exact absurd hSame (by decide +kernel)

end MailFilter.Settings
