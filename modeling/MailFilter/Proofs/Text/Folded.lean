import MailFilter.Message.Header
import MailFilter.Proofs.Text.Utf8
import Mathlib.Data.List.DropRight

/-
  What it means that a value may go on over several lines,
  and that this does not depend on whether one looks at its
  bytes or at its characters.

  Key definitions include:
    * `IsFolded`
    * `Bytes.IsFolded`
    * `Text.IsFolded`

  Main statements:
    * `Utf8.isFolded_decodeChars`
    * `Utf8.isFolded_encodeChars`
    * `Text.isFolded_trimChars`
-/

namespace MailFilter

------------------------------------------------------------
-- Folded Lists
------------------------------------------------------------

/- Every feed is followed by an element that goes on. -/
def IsFolded
    {α : Type}
    (isFeed goesOn : α → Bool) : List α → Prop
  | [] => True
  | a :: rest =>
      (isFeed a = true → rest.head?.any goesOn = true) ∧
        IsFolded isFeed goesOn rest

instance
    {α : Type}
    (isFeed goesOn : α → Bool)
    (list : List α) :
    Decidable (IsFolded isFeed goesOn list) := by
  induction list with
  | nil => exact isTrue trivial
  | cons a rest ih =>
      unfold IsFolded
      infer_instance

namespace IsFolded

variable {α : Type} {isFeed goesOn : α → Bool}

/- A list without feeds is folded. -/
theorem of_forall
    {list : List α}
    (hNone : ∀ a ∈ list, isFeed a = false) :
    IsFolded isFeed goesOn list := by
  induction list with
  | nil => trivial
  | cons a rest ih =>
      refine ⟨?_, ih fun b hb =>
        hNone b (List.mem_cons_of_mem a hb)⟩
      simp [hNone a]

theorem append
    {front back : List α}
    (hFront : IsFolded isFeed goesOn front)
    (hBack : IsFolded isFeed goesOn back) :
    IsFolded isFeed goesOn (front ++ back) := by
  induction front with
  | nil => exact hBack
  | cons a rest ih =>
      refine ⟨?_, ih hFront.2⟩
      intro hFeed
      have hNext := hFront.1 hFeed
      cases rest with
      | nil => simp at hNext
      | cons b rest => exact hNext

theorem of_append_right
    {front back : List α}
    (hFolded : IsFolded isFeed goesOn (front ++ back)) :
    IsFolded isFeed goesOn back := by
  induction front with
  | nil => exact hFolded
  | cons a rest ih => exact ih hFolded.2

/- A part in front is folded unless it ends in a feed. -/
theorem of_append_left
    {front back : List α}
    (hFolded : IsFolded isFeed goesOn (front ++ back))
    (hLast : ∀ a, front.getLast? = some a → isFeed a = false) :
    IsFolded isFeed goesOn front := by
  induction front with
  | nil => trivial
  | cons a rest ih =>
      cases rest with
      | nil => exact ⟨by simp [hLast a rfl], trivial⟩
      | cons b rest =>
          refine ⟨hFolded.1, ih hFolded.2 ?_⟩
          intro c hc
          exact hLast c (by simpa using hc)

/- A list stays folded when feeds are dropped from its end. -/
theorem rdropWhile
    {list : List α}
    (hFolded : IsFolded isFeed goesOn list)
    {drops : α → Bool}
    (hDrops : ∀ a, isFeed a = true → drops a = true) :
    IsFolded isFeed goesOn (list.rdropWhile drops) := by
  rw [← List.rdropWhile_append_rtakeWhile
    (p := drops) (l := list)] at hFolded
  refine hFolded.of_append_left ?_
  intro a hLast
  rcases List.mem_getLast?_eq_getLast hLast with ⟨hSome, rfl⟩
  have hKept := List.rdropWhile_last_not drops list hSome
  exact Bool.eq_false_iff.mpr fun hFeed => hKept (hDrops _ hFeed)

/- What follows a feed goes on. -/
theorem goesOn_of_append_cons
    {front back : List α}
    {a : α}
    (hFolded : IsFolded isFeed goesOn (front ++ a :: back))
    (hFeed : isFeed a = true) :
    back.head?.any goesOn = true :=
  (of_append_right hFolded).1 hFeed

end IsFolded

/- Every line feed is followed by a space or a tab. -/
abbrev Bytes.IsFolded
    (data : Bytes) : Prop :=
  MailFilter.IsFolded (· == Bytes.lf) Bytes.isSpaceOrTab data

/- A space or a tab, as a character. -/
def Text.isSpaceOrTab
    (c : Char) : Bool :=
  c == ' ' || c == '\t'

/- Every line feed is followed by a space or a tab. -/
abbrev Text.IsFolded
    (text : List Char) : Prop :=
  MailFilter.IsFolded (· == '\n') Text.isSpaceOrTab text

------------------------------------------------------------
-- Bytes And Characters
------------------------------------------------------------

namespace Utf8

open Bytes

/- Bytes without a line feed are read without one. -/
theorem newline_not_mem_decodeChars
    {data : Bytes}
    (hNone : lf ∉ data) :
    '\n' ∉ decodeChars data := by
  intro hMem
  rcases mem_of_mem_decodeChars (by decide) (by decide) hMem
    with ⟨b, hData, hEq⟩
  have hFeed : b = lf := UInt8.toNat_inj.mp hEq
  exact hNone (hFeed ▸ hData)

/- A space or a tab is read as one. -/
theorem isSpaceOrTab_decodeChars
    {data : Bytes}
    (hBlank : data.head?.any isSpaceOrTab = true) :
    (decodeChars data).head?.any Text.isSpaceOrTab = true := by
  cases data with
  | nil => simp at hBlank
  | cons b rest =>
      simp only [isSpaceOrTab, List.head?_cons,
        Option.any_some, Bool.or_eq_true, beq_iff_eq] at hBlank
      rcases hBlank with rfl | rfl
      · rw [decodeChars_cons_ascii (by decide)]
        rfl
      · rw [decodeChars_cons_ascii (by decide)]
        rfl

/- What is read from folded bytes is folded. -/
theorem isFolded_decodeChars
    {data : Bytes}
    (hFolded : data.IsFolded) :
    Text.IsFolded (decodeChars data) := by
  induction hLength : data.length using Nat.strong_induction_on
    generalizing data with
  | _ length ih =>
      have hNoFeed :
          ∀ {front : Bytes}, lf ∉ front →
            Text.IsFolded (decodeChars front) := by
        intro front hNone
        apply IsFolded.of_forall
        intro c hc
        have hNot := newline_not_mem_decodeChars hNone
        simp only [beq_eq_false_iff_ne]
        intro hEq
        exact hNot (hEq ▸ hc)
      by_cases hMem : lf ∈ data
      · rcases List.eq_append_cons_of_mem hMem with
          ⟨front, back, rfl, hFront⟩
        have hBlank :=
          hFolded.goesOn_of_append_cons (a := lf) rfl
        have hBack : Bytes.IsFolded back :=
          hFolded.of_append_right.2
        rw [decodeChars_append_ascii _ (by decide),
          decodeChars_cons_ascii (by decide)]
        refine (hNoFeed hFront).append ⟨?_, ?_⟩
        · intro _
          exact isSpaceOrTab_decodeChars hBlank
        · simp only [List.length_append,
            List.length_cons] at hLength
          exact ih back.length (by omega) hBack rfl
      · exact hNoFeed hMem

/- Folded text is written folded. -/
theorem isFolded_encodeChars
    {text : List Char}
    (hFolded : Text.IsFolded text) :
    Bytes.IsFolded (encodeChars text) := by
  induction text with
  | nil => trivial
  | cons c text ih =>
      rw [encodeChars_cons]
      by_cases hFeed : c = '\n'
      · subst hFeed
        refine ⟨?_, ih hFolded.2⟩
        intro _
        have hNext := hFolded.1 rfl
        cases text with
        | nil => simp at hNext
        | cons d text =>
            simp only [Text.isSpaceOrTab, List.head?_cons,
              Option.any_some, Bool.or_eq_true,
              beq_iff_eq] at hNext
            rcases hNext with rfl | rfl <;> rfl
      · apply MailFilter.IsFolded.append ?_ (ih hFolded.2)
        apply MailFilter.IsFolded.of_forall
        intro b hb
        simp only [beq_eq_false_iff_ne]
        rintro rfl
        exact hFeed (eq_of_mem_encodeChar (by decide) hb).symm

end Utf8

------------------------------------------------------------
-- Trimming
------------------------------------------------------------

/- Trimming keeps text folded. -/
theorem Text.isFolded_trimChars
    {text : List Char}
    (hFolded : Text.IsFolded text) :
    Text.IsFolded (trimChars text) := by
  have hStart : Text.IsFolded (trimStart text) := by
    rw [← List.takeWhile_append_dropWhile
      (p := isBlank) (l := text)] at hFolded
    exact hFolded.of_append_right
  apply hStart.rdropWhile
  intro c hFeed
  rw [beq_iff_eq.mp hFeed]
  rfl

end MailFilter
