import MailFilter.Proofs.Relay.Offsets
import Mathlib.Data.List.Forall2

/-
  Which bytes are a reply.

  The grammar of replies is given apart from how they are
  read: lines with a code of three characters, a hyphen behind
  it in all lines but the last, and there a space or nothing.
  It has two forms. In one the code is three digits. In the
  other it is any way to write the number, of which there is
  one with a plus sign.

  What is read follows the second form for every buffer. It
  follows the first one unless a line that is taken starts
  with the sign.

  Key definitions include:
    * `Relay.Response.IsDigits`
    * `Relay.Response.IsSpelling`
    * `Relay.Response.IsBegun`
    * `Relay.Response.IsReply`
    * `Relay.Response.Follows`
    * `Relay.Response.TakesSign`

  Main statements:
    * `Relay.Response.parseFrom_cases`
    * `Relay.Response.follows_spelling`
    * `Relay.Response.follows_digits_iff`
-/

namespace MailFilter.Relay.Response

open Bytes

------------------------------------------------------------
-- Codes
------------------------------------------------------------

/- The code is the three digits of the number. -/
def IsDigits
    (n : Nat)
    (code : List Char) : Prop :=
  n < 1000 ∧
    code =
      [Nat.digitChar (n / 100), Nat.digitChar (n / 10 % 10),
        Nat.digitChar (n % 10)]

/- The code is a way to write the number in three characters. -/
def IsSpelling
    (n : Nat)
    (code : List Char) : Prop :=
  code.length = 3 ∧
    ∃ signed zeros, code = Decimal.spelling signed zeros n

theorem isSpelling_iff
    {n : Nat}
    {code : List Char} :
    IsSpelling n code ↔
      code.length = 3 ∧ Decimal.read? code = some n := by
  rw [IsSpelling, Decimal.read?_eq_some_iff]

/- The number that three digits stand for. -/
theorem ofDigitChars_three
    (a b c : Char) :
    Nat.ofDigitChars 10 [a, b, c] 0 =
      100 * (a.toNat - 48) + 10 * (b.toNat - 48) +
        (c.toNat - 48) := by
  have hZero : '0'.toNat = 48 := rfl
  simp only [Nat.ofDigitChars_cons, Nat.ofDigitChars_nil, hZero]
  omega

theorem isDigits_iff_ofDigits?
    {n : Nat}
    {code : List Char} :
    IsDigits n code ↔
      code.length = 3 ∧ Decimal.ofDigits? code = some n := by
  rw [Decimal.ofDigits?_eq_some_iff]
  constructor
  · rintro ⟨hLess, rfl⟩
    have hFirst : n / 100 < 10 := by omega
    have hSecond : n / 10 % 10 < 10 := by omega
    have hThird : n % 10 < 10 := by omega
    refine ⟨rfl, List.cons_ne_nil _ _, ?_, ?_⟩
    · simp [Nat.isDigit_digitChar, hFirst, hSecond, hThird]
    · rw [ofDigitChars_three,
        Nat.toNat_digitChar_of_lt_ten hFirst,
        Nat.toNat_digitChar_of_lt_ten hSecond,
        Nat.toNat_digitChar_of_lt_ten hThird]
      omega
  · rintro ⟨hLength, -, hDigits, hValue⟩
    rcases List.length_eq_three.mp hLength with ⟨a, b, c, rfl⟩
    rw [ofDigitChars_three] at hValue
    have hRange :
        ∀ d ∈ [a, b, c], d.toNat - 48 < 10 := by
      intro d hMem
      have hDigit := Char.isDigit_iff_toNat.mp (hDigits d hMem)
      change 48 ≤ d.toNat ∧ d.toNat ≤ 57 at hDigit
      omega
    have hFirst := hRange a (by simp)
    have hSecond := hRange b (by simp)
    have hThird := hRange c (by simp)
    have hHundreds : n / 100 = a.toNat - 48 := by omega
    have hTens : n / 10 % 10 = b.toNat - 48 := by omega
    have hOnes : n % 10 = c.toNat - 48 := by omega
    refine ⟨by omega, ?_⟩
    rw [hHundreds, hTens, hOnes,
      Decimal.digitChar_toNat_sub (hDigits a (by simp)),
      Decimal.digitChar_toNat_sub (hDigits b (by simp)),
      Decimal.digitChar_toNat_sub (hDigits c (by simp))]

/- Three digits are a spelling without a sign. -/
theorem isDigits_iff
    {n : Nat}
    {code : List Char} :
    IsDigits n code ↔
      IsSpelling n code ∧ code.head? ≠ some '+' := by
  rw [isDigits_iff_ofDigits?, isSpelling_iff]
  constructor
  · rintro ⟨hLength, hDigits⟩
    have hPlain : code.head? ≠ some '+' := by
      intro hSign
      have hFirst :=
        (Decimal.ofDigits?_eq_some_iff.mp hDigits).2.1 '+'
          (List.mem_of_mem_head? hSign)
      cases hFirst
    rw [Decimal.read?_eq_ofDigits? hPlain]
    exact ⟨⟨hLength, hDigits⟩, hPlain⟩
  · rintro ⟨⟨hLength, hRead⟩, hPlain⟩
    rw [Decimal.read?_eq_ofDigits? hPlain] at hRead
    exact ⟨hLength, hRead⟩

------------------------------------------------------------
-- Lines
------------------------------------------------------------

/- A line that another one follows, with the text behind. -/
def GoesOn
    (IsCode : Nat → List Char → Prop)
    (n : Nat)
    (line : Bytes)
    (text : String) : Prop :=
  line.IsLine ∧
    ∃ code,
      IsCode n code ∧
        (lineText line).toList = code ++ '-' :: text.toList

/- The last line of a reply, with the text behind. -/
def Ends
    (IsCode : Nat → List Char → Prop)
    (n : Nat)
    (line : Bytes)
    (text : String) : Prop :=
  line.IsLine ∧
    ∃ code,
      IsCode n code ∧
        ((lineText line).toList = code ++ ' ' :: text.toList ∨
          (lineText line).toList = code ∧ text = "")

/- Lines of a reply that is not complete, with their texts. -/
def IsBegun
    (IsCode : Nat → List Char → Prop)
    (n : Nat)
    (lines : List Bytes)
    (texts : List String) : Prop :=
  List.Forall₂ (GoesOn IsCode n) lines texts

/- The lines are a reply. -/
def IsReply
    (IsCode : Nat → List Char → Prop)
    (response : Response)
    (lines : List Bytes) : Prop :=
  ∃ front last texts text,
    lines = front ++ [last] ∧
      response.lines = texts ++ [text] ∧
      IsBegun IsCode response.code front texts ∧
      Ends IsCode response.code last text

/- The line starts with a plus sign. -/
def IsSigned
    (line : Bytes) : Prop :=
  (lineText line).toList.head? = some '+'

/- What is read of a line that goes on. -/
theorem readLine?_of_goesOn
    {n : Nat}
    {line : Bytes}
    {text : String}
    (hLine : GoesOn IsSpelling n line text) :
    readLine? (lineText line) = some ⟨n, false, text⟩ := by
  rcases hLine with ⟨-, code, hCode, hText⟩
  rcases isSpelling_iff.mp hCode with ⟨hLength, hRead⟩
  rcases List.length_eq_three.mp hLength with ⟨a, b, c, rfl⟩
  simp [readLine?, hText, hRead]

/- What is read of a line that ends a reply. -/
theorem readLine?_of_ends
    {n : Nat}
    {line : Bytes}
    {text : String}
    (hLine : Ends IsSpelling n line text) :
    readLine? (lineText line) = some ⟨n, true, text⟩ := by
  rcases hLine with ⟨-, code, hCode, hText⟩
  rcases isSpelling_iff.mp hCode with ⟨hLength, hRead⟩
  rcases List.length_eq_three.mp hLength with ⟨a, b, c, rfl⟩
  rcases hText with hText | ⟨hText, rfl⟩
  · simp [readLine?, hText, hRead]
  · simp [readLine?, hText, hRead]

/- A line that can be read goes on or ends a reply. -/
theorem goesOn_or_ends_of_readLine?
    {line : Bytes}
    (hLine : line.IsLine)
    {read : Line}
    (hRead : readLine? (lineText line) = some read) :
    (read.last = false ∧
        GoesOn IsSpelling read.code line read.text) ∨
      (read.last = true ∧
        Ends IsSpelling read.code line read.text) := by
  unfold readLine? at hRead
  split at hRead
  · rename_i a b c rest hText
    cases hCode : Decimal.read? [a, b, c] with
    | none => simp [hCode] at hRead
    | some n =>
        have hSpelling : IsSpelling n [a, b, c] :=
          isSpelling_iff.mpr ⟨rfl, hCode⟩
        rw [hCode] at hRead
        cases rest with
        | nil =>
            cases hRead
            exact Or.inr ⟨rfl, hLine, _, hSpelling,
              Or.inr ⟨hText, rfl⟩⟩
        | cons mark text =>
            simp only at hRead
            split at hRead
            · rename_i hSpace
              cases hRead
              refine Or.inr ⟨rfl, hLine, _, hSpelling, Or.inl ?_⟩
              rw [hText, String.toList_ofList, eq_of_beq hSpace]
              rfl
            · split at hRead
              · rename_i hHyphen
                cases hRead
                refine Or.inl ⟨rfl, hLine, _, hSpelling, ?_⟩
                rw [hText, String.toList_ofList,
                  eq_of_beq hHyphen]
                rfl
              · cases hRead
  · cases hRead

------------------------------------------------------------
-- Buffers
------------------------------------------------------------

/- The code, if there is one, is the number. -/
def Agrees
    (code : Option Nat)
    (n : Nat) : Prop :=
  ∀ m ∈ code, m = n

theorem Agrees.any
    {code : Option Nat}
    {n : Nat}
    (hAgrees : Agrees code n) :
    ¬ code.any (· != n) = true := by
  cases code with
  | none => simp
  | some m => simp [hAgrees m rfl]

theorem agrees_of_any
    {code : Option Nat}
    {n : Nat}
    (hAny : ¬ code.any (· != n) = true) :
    Agrees code n := by
  intro m hMem
  rw [Option.mem_def.mp hMem] at hAny
  simpa using hAny

theorem parseFrom_goesOn
    {code : Option Nat}
    {n : Nat}
    (hAgrees : Agrees code n)
    {line : Bytes}
    {text : String}
    (hLine : GoesOn IsSpelling n line text)
    (texts : List String)
    (rest : Bytes) :
    parseFrom code texts (line ++ rest) =
      parseFrom (some n) (text :: texts) rest := by
  rw [parseFrom_line hLine.1, readLine?_of_goesOn hLine]
  exact (if_neg hAgrees.any).trans (if_neg Bool.false_ne_true)

theorem parseFrom_ends
    {code : Option Nat}
    {n : Nat}
    (hAgrees : Agrees code n)
    {line : Bytes}
    {text : String}
    (hLine : Ends IsSpelling n line text)
    (texts : List String)
    (rest : Bytes) :
    parseFrom code texts (line ++ rest) =
      .ok (some (⟨n, (text :: texts).reverse⟩, rest)) := by
  rw [parseFrom_line hLine.1, readLine?_of_ends hLine]
  exact (if_neg hAgrees.any).trans (if_pos rfl)

/- Lines that go on are read one after the other. -/
theorem exists_parseFrom_begun
    {code : Option Nat}
    {n : Nat}
    (hAgrees : Agrees code n)
    {lines : List Bytes}
    {added : List String}
    (hLines : IsBegun IsSpelling n lines added)
    (texts : List String)
    (rest : Bytes) :
    ∃ later,
      Agrees later n ∧
        parseFrom code texts (lines.flatten ++ rest) =
          parseFrom later (added.reverse ++ texts) rest := by
  induction hLines generalizing code texts with
  | nil => exact ⟨code, hAgrees, rfl⟩
  | cons hLine _ ih =>
      have hSame : Agrees (some n) n := by simp [Agrees]
      rcases ih hSame (_ :: texts) with ⟨later, hLater, hParse⟩
      refine ⟨later, hLater, ?_⟩
      rw [List.flatten_cons, List.append_assoc,
        parseFrom_goesOn hAgrees hLine, hParse,
        List.reverse_cons, List.append_assoc]
      rfl

/- What a reply is read as. -/
theorem parse_of_isReply
    {response : Response}
    {lines : List Bytes}
    (hReply : IsReply IsSpelling response lines)
    (rest : Bytes) :
    parse (lines.flatten ++ rest) = .ok (some (response, rest)) := by
  rcases hReply with
    ⟨front, last, texts, text, rfl, hTexts, hFront, hLast⟩
  have hNone : Agrees none response.code := by simp [Agrees]
  rcases exists_parseFrom_begun hNone hFront [] (last ++ rest) with
    ⟨later, hLater, hParse⟩
  rw [List.flatten_append, List.flatten_singleton,
    List.append_assoc, parse, hParse,
    parseFrom_ends hLater hLast, List.append_nil,
    List.reverse_cons, List.reverse_reverse, ← hTexts]

/- Lines that go on are no complete reply. -/
theorem parse_of_isBegun
    {n : Nat}
    {lines : List Bytes}
    {texts : List String}
    (hLines : IsBegun IsSpelling n lines texts)
    {rest : Bytes}
    (hRest : lf ∉ rest) :
    parse (lines.flatten ++ rest) = .ok none := by
  have hNone : Agrees none n := by simp [Agrees]
  rcases exists_parseFrom_begun hNone hLines [] rest with
    ⟨later, -, hParse⟩
  rw [parse, hParse, parseFrom, if_neg (by simpa using hRest)]

/-
  What a buffer can be read as, after a code and texts: lines
  that go on, lines that are a reply, or something else.
-/
inductive Outcome
    (code : Option Nat)
    (texts : List String)
    (buffer : Bytes) :
    Except DeliveryError (Option (Response × Bytes)) → Prop where
  | begun
      (n : Nat)
      (lines : List Bytes)
      (added : List String)
      (rest : Bytes)
      (hAgrees : Agrees code n)
      (hBuffer : buffer = lines.flatten ++ rest)
      (hRest : lf ∉ rest)
      (hLines : IsBegun IsSpelling n lines added) :
      Outcome code texts buffer (.ok none)
  | reply
      (n : Nat)
      (lines : List Bytes)
      (added : List String)
      (rest : Bytes)
      (hAgrees : Agrees code n)
      (hBuffer : buffer = lines.flatten ++ rest)
      (hReply : IsReply IsSpelling ⟨n, added⟩ lines) :
      Outcome code texts buffer
        (.ok (some (⟨n, texts.reverse ++ added⟩, rest)))
  | refused
      (line : Bytes)
      (hMem : line ∈ Bytes.lines buffer) :
      Outcome code texts buffer
        (.error (.malformedReply (lineText line)))

/- A line that goes on is put in front of a reply. -/
theorem IsReply.cons
    {n : Nat}
    {line : Bytes}
    {text : String}
    (hLine : GoesOn IsSpelling n line text)
    {texts : List String}
    {lines : List Bytes}
    (hReply : IsReply IsSpelling ⟨n, texts⟩ lines) :
    IsReply IsSpelling ⟨n, text :: texts⟩ (line :: lines) := by
  rcases hReply with
    ⟨front, last, before, later, rfl, hTexts, hFront, hLast⟩
  exact ⟨line :: front, last, text :: before, later, rfl,
    congrArg (text :: ·) hTexts, .cons hLine hFront, hLast⟩

theorem Outcome.cons
    {code : Option Nat}
    {n : Nat}
    (hAgrees : Agrees code n)
    {line : Bytes}
    {text : String}
    (hLine : GoesOn IsSpelling n line text)
    {texts : List String}
    {rest : Bytes}
    {result : Except DeliveryError (Option (Response × Bytes))}
    (hRest : Outcome (some n) (text :: texts) rest result) :
    Outcome code texts (line ++ rest) result := by
  cases hRest with
  | begun m lines added left hLater hBuffer hNone hLines =>
      obtain rfl : n = m := hLater n rfl
      refine .begun n (line :: lines) (text :: added) left hAgrees
        ?_ hNone (.cons hLine hLines)
      rw [hBuffer, List.flatten_cons, List.append_assoc]
  | reply m lines added left hLater hBuffer hReply =>
      obtain rfl : n = m := hLater n rfl
      rw [List.reverse_cons, List.append_assoc]
      refine .reply n (line :: lines) (text :: added) left hAgrees
        ?_ (hReply.cons hLine)
      rw [hBuffer, List.flatten_cons, List.append_assoc]
  | refused bad hMem =>
      refine .refused bad ?_
      rw [lines_cons hLine.1]
      exact List.mem_cons_of_mem _ hMem

theorem outcome_parseFrom
    (code : Option Nat)
    (texts : List String)
    (buffer : Bytes) :
    Outcome code texts buffer (parseFrom code texts buffer) := by
  induction buffer using lineInduction generalizing code texts with
  | tail buffer hNone =>
      have hAgrees : Agrees code (code.getD 0) := by
        intro m hMem
        rw [Option.mem_def.mp hMem]
        rfl
      rw [parseFrom, if_neg (by simpa using hNone)]
      exact .begun _ [] [] buffer hAgrees rfl hNone .nil
  | line line rest hLine ih =>
      have hMem : line ∈ Bytes.lines (line ++ rest) := by
        rw [lines_cons hLine]
        exact List.mem_cons_self
      rw [parseFrom_line hLine]
      cases hRead : readLine? (lineText line) with
      | none => exact .refused line hMem
      | some read =>
          simp only
          split
          · exact .refused line hMem
          · rename_i hAny
            have hAgrees := agrees_of_any hAny
            rcases goesOn_or_ends_of_readLine? hLine hRead with
              ⟨hLast, hGoesOn⟩ | ⟨hLast, hEnds⟩
            · rw [hLast, if_neg Bool.false_ne_true]
              exact (ih _ _).cons hAgrees hGoesOn
            · rw [hLast, if_pos rfl, List.reverse_cons]
              exact .reply read.code [line] [read.text] rest
                hAgrees (by simp)
                ⟨[], line, [], read.text, rfl, rfl, .nil, hEnds⟩

------------------------------------------------------------
-- The Grammar
------------------------------------------------------------

/-
  What is read of the buffer is what the grammar has. There is
  a reply if the buffer starts with one, and none so far if
  all complete lines are those of a reply that goes on.
-/
structure Follows
    (IsCode : Nat → List Char → Prop)
    (buffer : Bytes) : Prop where
  reply :
    ∀ response rest,
      parse buffer = .ok (some (response, rest)) ↔
        ∃ lines,
          buffer = lines.flatten ++ rest ∧
            IsReply IsCode response lines
  begun :
    parse buffer = .ok none ↔
      ∃ n lines texts rest,
        buffer = lines.flatten ++ rest ∧
          lf ∉ rest ∧
          IsBegun IsCode n lines texts
  refused :
    ∀ e, parse buffer = .error e →
      ∃ line ∈ Bytes.lines buffer,
        e = .malformedReply (lineText line)

/- What is read has codes that are spelled in any way. -/
theorem follows_spelling
    (buffer : Bytes) :
    Follows IsSpelling buffer := by
  have hOutcome := outcome_parseFrom none [] buffer
  constructor
  · intro response rest
    constructor
    · intro hParse
      rw [← parse, hParse] at hOutcome
      cases hOutcome with
      | reply n lines added rest _ hBuffer hReply =>
          exact ⟨lines, hBuffer, hReply⟩
    · rintro ⟨lines, rfl, hReply⟩
      exact parse_of_isReply hReply rest
  · constructor
    · intro hParse
      rw [← parse, hParse] at hOutcome
      cases hOutcome with
      | begun n lines added rest _ hBuffer hRest hLines =>
          exact ⟨n, lines, added, rest, hBuffer, hRest, hLines⟩
    · rintro ⟨n, lines, texts, rest, rfl, hRest, hLines⟩
      exact parse_of_isBegun hLines hRest
  · intro e hParse
    rw [← parse, hParse] at hOutcome
    cases hOutcome with
    | refused line hMem => exact ⟨line, hMem, rfl⟩

------------------------------------------------------------
-- Signs
------------------------------------------------------------

/- A line starts with a sign if its code does. -/
theorem not_isSigned_iff
    {line : Bytes}
    {code : List Char}
    (hText : code <+: (lineText line).toList)
    (hLength : code.length = 3) :
    ¬ IsSigned line ↔ code.head? ≠ some '+' := by
  rcases hText with ⟨more, hText⟩
  have hSome : code ≠ [] := by
    rintro rfl
    cases hLength
  rw [IsSigned, ← hText, List.head?_append_of_ne_nil _ hSome]

theorem goesOn_digits_iff
    {n : Nat}
    {line : Bytes}
    {text : String} :
    GoesOn IsDigits n line text ↔
      GoesOn IsSpelling n line text ∧ ¬ IsSigned line := by
  constructor
  · rintro ⟨hLine, code, hCode, hText⟩
    rcases isDigits_iff.mp hCode with ⟨hSpelling, hPlain⟩
    exact ⟨⟨hLine, code, hSpelling, hText⟩,
      (not_isSigned_iff ⟨_, hText.symm⟩ hSpelling.1).mpr hPlain⟩
  · rintro ⟨⟨hLine, code, hSpelling, hText⟩, hSigned⟩
    have hPlain :=
      (not_isSigned_iff ⟨_, hText.symm⟩ hSpelling.1).mp hSigned
    exact ⟨hLine, code, isDigits_iff.mpr ⟨hSpelling, hPlain⟩,
      hText⟩

theorem ends_digits_iff
    {n : Nat}
    {line : Bytes}
    {text : String} :
    Ends IsDigits n line text ↔
      Ends IsSpelling n line text ∧ ¬ IsSigned line := by
  have hFront :
      ∀ code : List Char,
        ((lineText line).toList = code ++ ' ' :: text.toList ∨
            (lineText line).toList = code ∧ text = "") →
          code <+: (lineText line).toList := by
    rintro code (hText | ⟨hText, -⟩)
    · exact ⟨_, hText.symm⟩
    · exact ⟨[], by rw [hText, List.append_nil]⟩
  constructor
  · rintro ⟨hLine, code, hCode, hText⟩
    rcases isDigits_iff.mp hCode with ⟨hSpelling, hPlain⟩
    exact ⟨⟨hLine, code, hSpelling, hText⟩,
      (not_isSigned_iff (hFront code hText) hSpelling.1).mpr
        hPlain⟩
  · rintro ⟨⟨hLine, code, hSpelling, hText⟩, hSigned⟩
    have hPlain :=
      (not_isSigned_iff (hFront code hText) hSpelling.1).mp
        hSigned
    exact ⟨hLine, code, isDigits_iff.mpr ⟨hSpelling, hPlain⟩,
      hText⟩

theorem isBegun_digits_iff
    {n : Nat}
    {lines : List Bytes}
    {texts : List String} :
    IsBegun IsDigits n lines texts ↔
      IsBegun IsSpelling n lines texts ∧
        ∀ line ∈ lines, ¬ IsSigned line := by
  unfold IsBegun
  induction lines generalizing texts with
  | nil => cases texts <;> simp
  | cons line lines ih =>
      cases texts with
      | nil => simp
      | cons text texts =>
          rw [List.forall₂_cons, List.forall₂_cons, ih,
            goesOn_digits_iff, List.forall_mem_cons]
          tauto

theorem isReply_digits_iff
    {response : Response}
    {lines : List Bytes} :
    IsReply IsDigits response lines ↔
      IsReply IsSpelling response lines ∧
        ∀ line ∈ lines, ¬ IsSigned line := by
  constructor
  · rintro ⟨front, last, texts, text, rfl, hTexts, hFront, hLast⟩
    rcases isBegun_digits_iff.mp hFront with ⟨hBegun, hPlain⟩
    rcases ends_digits_iff.mp hLast with ⟨hEnds, hOther⟩
    refine ⟨⟨front, last, texts, text, rfl, hTexts, hBegun,
      hEnds⟩, ?_⟩
    rw [List.forall_mem_append, List.forall_mem_singleton]
    exact ⟨hPlain, hOther⟩
  · rintro ⟨⟨front, last, texts, text, rfl, hTexts, hFront,
      hLast⟩, hPlain⟩
    rw [List.forall_mem_append, List.forall_mem_singleton]
      at hPlain
    exact ⟨front, last, texts, text, rfl, hTexts,
      isBegun_digits_iff.mpr ⟨hFront, hPlain.1⟩,
      ends_digits_iff.mpr ⟨hLast, hPlain.2⟩⟩

/- Lines of a reply end in their only line feed. -/
theorem IsBegun.isLine
    {IsCode : Nat → List Char → Prop}
    {n : Nat}
    {lines : List Bytes}
    {texts : List String}
    (hLines : IsBegun IsCode n lines texts) :
    ∀ line ∈ lines, line.IsLine := by
  induction hLines with
  | nil => simp
  | cons hLine _ ih =>
      exact List.forall_mem_cons.mpr ⟨hLine.1, ih⟩

theorem IsReply.isLine
    {IsCode : Nat → List Char → Prop}
    {response : Response}
    {lines : List Bytes}
    (hReply : IsReply IsCode response lines) :
    ∀ line ∈ lines, line.IsLine := by
  rcases hReply with ⟨front, last, _, _, rfl, _, hFront, hLast⟩
  rw [List.forall_mem_append, List.forall_mem_singleton]
  exact ⟨hFront.isLine, hLast.1⟩

/- The lines that are taken from the start of a buffer. -/
def Takes
    (buffer : Bytes)
    (lines : List Bytes) : Prop :=
  ∃ rest,
    buffer = lines.flatten ++ rest ∧
      ((∃ response, IsReply IsSpelling response lines) ∨
        (lf ∉ rest ∧
          ∃ n texts, IsBegun IsSpelling n lines texts))

/- One of the lines that are taken starts with a plus sign. -/
def TakesSign
    (buffer : Bytes) : Prop :=
  ∃ lines, Takes buffer lines ∧ ∃ line ∈ lines, IsSigned line

/- A buffer falls into lines in one way. -/
theorem eq_of_flatten_append
    {lines others : List Bytes}
    {rest : Bytes}
    (hLines : ∀ line ∈ lines, line.IsLine)
    (hOthers : ∀ line ∈ others, line.IsLine)
    (hSame : lines.flatten ++ rest = others.flatten ++ rest) :
    lines = others := by
  have hCut := congrArg Bytes.lines hSame
  rw [lines_flatten_append hLines, lines_flatten_append hOthers]
    at hCut
  exact List.append_cancel_right hCut

/- Its complete lines are those that have a line feed. -/
theorem filter_lines_append
    {lines : List Bytes}
    {rest : Bytes}
    (hLines : ∀ line ∈ lines, line.IsLine)
    (hRest : lf ∉ rest) :
    (Bytes.lines (lines.flatten ++ rest)).filter (lf ∈ ·) =
      lines := by
  have hFront : lines.filter (lf ∈ ·) = lines := by
    rw [List.filter_eq_self]
    intro line hMem
    rcases hLines line hMem with ⟨front, rfl, -⟩
    simp
  have hBack : (Bytes.lines rest).filter (lf ∈ ·) = [] := by
    by_cases hSome : rest = []
    · rw [hSome]
      rfl
    · rw [lines_of_lf_not_mem hRest hSome]
      simp [hRest]
  rw [lines_flatten_append hLines, List.filter_append, hFront,
    hBack, List.append_nil]

/- No sign is taken if only three digits are read. -/
theorem Follows.not_takesSign
    {buffer : Bytes}
    (hDigits : Follows IsDigits buffer) :
    ¬ TakesSign buffer := by
  have hSpelling := follows_spelling buffer
  -- Both grammars cut the buffer into the same lines.
  rintro ⟨lines, ⟨rest, hBuffer, hTaken⟩, line, hMem, hSigned⟩
  rcases hTaken with ⟨response, hReply⟩ | ⟨hRest, n, texts, hLines⟩
  · have hParse :=
      (hSpelling.reply response rest).mpr ⟨lines, hBuffer, hReply⟩
    rcases (hDigits.reply response rest).mp hParse with
      ⟨others, hOthers, hOther⟩
    rcases isReply_digits_iff.mp hOther with ⟨-, hPlain⟩
    have hSame : lines = others :=
      eq_of_flatten_append hReply.isLine hOther.isLine
        (hBuffer.symm.trans hOthers)
    exact hPlain line (hSame ▸ hMem) hSigned
  · have hParse :=
      hSpelling.begun.mpr
        ⟨n, lines, texts, rest, hBuffer, hRest, hLines⟩
    rcases hDigits.begun.mp hParse with
      ⟨m, others, more, left, hOthers, hLeft, hOther⟩
    rcases isBegun_digits_iff.mp hOther with ⟨-, hPlain⟩
    have hSame : lines = others :=
      (filter_lines_append hLines.isLine hRest).symm.trans
        (hBuffer ▸ hOthers ▸
          filter_lines_append hOther.isLine hLeft)
    exact hPlain line (hSame ▸ hMem) hSigned

/- Only three digits are read if no sign is taken. -/
theorem follows_digits
    {buffer : Bytes}
    (hNone : ¬ TakesSign buffer) :
    Follows IsDigits buffer := by
  have hSpelling := follows_spelling buffer
  have hPlain :
      ∀ lines, Takes buffer lines →
        ∀ line ∈ lines, ¬ IsSigned line :=
    fun lines hTakes line hMem hSigned =>
      hNone ⟨lines, hTakes, line, hMem, hSigned⟩
  refine ⟨fun response rest => ?_, ?_, hSpelling.refused⟩
  · rw [hSpelling.reply]
    refine exists_congr fun lines => and_congr_right fun hBuffer => ?_
    rw [isReply_digits_iff, iff_self_and]
    exact fun hReply =>
      hPlain lines ⟨rest, hBuffer, Or.inl ⟨response, hReply⟩⟩
  · rw [hSpelling.begun]
    refine exists_congr fun n => exists_congr fun lines =>
      exists_congr fun texts => exists_congr fun rest =>
        and_congr_right fun hBuffer =>
          and_congr_right fun hRest => ?_
    rw [isBegun_digits_iff, iff_self_and]
    exact fun hLines =>
      hPlain lines
        ⟨rest, hBuffer, Or.inr ⟨hRest, n, texts, hLines⟩⟩

/- Three digits are read unless a sign is taken for one. -/
theorem follows_digits_iff
    (buffer : Bytes) :
    Follows IsDigits buffer ↔ ¬ TakesSign buffer :=
  ⟨Follows.not_takesSign, follows_digits⟩

/-
  What is read of a buffer, whatever bytes it holds. Reading
  by places never cuts where there is no place, and gives the
  same. There is a reply, with the number of its bytes, if the
  buffer starts with one, none so far if all complete lines
  are those of a reply that goes on, and else an error. In
  this a code is any way to write a number in three
  characters. It is three digits exactly if no line that is
  taken starts with a plus sign.
-/
theorem parse_follows
    (buffer : Bytes) :
    parseAt? buffer 0 none [] =
        some (counted buffer.length (parse buffer)) ∧
      Follows IsSpelling buffer ∧
      (Follows IsDigits buffer ↔ ¬ TakesSign buffer) :=
  ⟨parseAt?_zero buffer, follows_spelling buffer,
    follows_digits_iff buffer⟩

/- A line with a sign in front of two digits. -/
def signedReply : Bytes :=
  Utf8.encode "+25 OK\r\n"

/- It is taken for a reply with the code 25. -/
theorem not_follows_digits_signed :
    parse signedReply = .ok (some (⟨25, ["OK"]⟩, [])) ∧
      ¬ Follows IsDigits signedReply := by
  have hText :
      (lineText signedReply).toList =
        ['+', '2', '5'] ++ ' ' :: "OK".toList := by
    decide +kernel
  have hLine : signedReply.IsLine :=
    ⟨signedReply.dropLast, by decide +kernel, by decide +kernel⟩
  have hEnds : Ends IsSpelling 25 signedReply "OK" :=
    ⟨hLine, _, isSpelling_iff.mpr ⟨rfl, by decide⟩, Or.inl hText⟩
  have hReply : IsReply IsSpelling ⟨25, ["OK"]⟩ [signedReply] :=
    ⟨[], signedReply, [], "OK", rfl, rfl, .nil, hEnds⟩
  have hWhole : signedReply = [signedReply].flatten ++ [] := by
    simp
  refine ⟨?_, ?_⟩
  · rw [hWhole]
    exact parse_of_isReply hReply []
  · rw [follows_digits_iff, not_not]
    have hSigned : IsSigned signedReply := by
      rw [IsSigned, hText]
      rfl
    exact ⟨[signedReply], ⟨[], hWhole, Or.inl ⟨_, hReply⟩⟩,
      signedReply, List.mem_singleton_self _, hSigned⟩

end MailFilter.Relay.Response
