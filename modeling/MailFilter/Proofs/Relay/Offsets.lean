import MailFilter.Proofs.Relay.Replies
import MailFilter.Proofs.Text.Decimal
import MailFilter.Proofs.Text.Lines

/-
  The places at which replies are cut.

  Lines are cut out of a buffer, and the code out of a line,
  at places that count bytes. Such a cut fails if there is no
  such place: behind the end, or in the middle of a character.
  Replies are read here with these cuts, and none of them
  fails, whatever is in the buffer.

  Key definitions include:
    * `Bytes.slice?`
    * `Text.IsBoundary`
    * `Text.sliceTo?`
    * `Relay.Response.readLineAt?`
    * `Relay.Response.rawLineAt?`
    * `Relay.Response.parseAt?`

  Main statements:
    * `Relay.Response.readLineAt?_eq`
    * `Relay.Response.parseAt?_append`
    * `Relay.Response.parseAt?_zero`
-/

namespace MailFilter

------------------------------------------------------------
-- Cuts
------------------------------------------------------------

/- The bytes between two places, if there are such places. -/
def Bytes.slice?
    (data : Bytes)
    (start stop : Nat) : Option Bytes :=
  if start ≤ stop ∧ stop ≤ data.length then
    some ((data.take stop).drop start)
  else
    none

/- A text has a place there, counted in bytes. -/
abbrev Text.IsBoundary
    (text : String)
    (place : Nat) : Prop :=
  (String.Pos.Raw.mk place).IsValid text

/- The text before a place, if there is such a place. -/
def Text.sliceTo?
    (text : String)
    (place : Nat) : Option String :=
  if hPlace : IsBoundary text place then
    some (text.sliceTo ⟨⟨place⟩, hPlace⟩).copy
  else
    none

/- The text behind a place, if there is such a place. -/
def Text.sliceFrom?
    (text : String)
    (place : Nat) : Option String :=
  if hPlace : IsBoundary text place then
    some (text.sliceFrom ⟨⟨place⟩, hPlace⟩).copy
  else
    none

namespace Bytes

theorem slice?_append
    (front middle back : Bytes) :
    (front ++ (middle ++ back)).slice? front.length
        (front.length + middle.length) =
      some middle := by
  rw [slice?, if_pos (by simp), ← List.append_assoc,
    ← List.length_append, List.take_left, List.drop_left]

theorem eq_of_slice?
    {data slice : Bytes}
    {start stop : Nat}
    (hSlice : data.slice? start stop = some slice) :
    stop ≤ data.length ∧ slice.length = stop - start := by
  rcases Option.ite_none_right_eq_some.mp hSlice with
    ⟨⟨_, hStop⟩, hSame⟩
  rw [← Option.some.inj hSame]
  simp [hStop]

end Bytes

namespace Text

/- There is a place behind each part of a text. -/
theorem isBoundary_append
    (front back : String) :
    IsBoundary (front ++ back) front.utf8ByteSize :=
  String.Pos.Raw.isValid_iff_exists_append.mpr
    ⟨front, back, rfl, rfl⟩

theorem sliceTo?_append
    (front back : String) :
    sliceTo? (front ++ back) front.utf8ByteSize =
      some front := by
  rw [sliceTo?, dif_pos (isBoundary_append front back)]
  exact congrArg some
    (String.Pos.Splits.mk rfl rfl).copy_sliceTo_eq

theorem sliceFrom?_append
    (front back : String) :
    sliceFrom? (front ++ back) front.utf8ByteSize =
      some back := by
  rw [sliceFrom?, dif_pos (isBoundary_append front back)]
  exact congrArg some
    (String.Pos.Splits.mk rfl rfl).copy_sliceFrom_eq

/- There is no other place. -/
theorem exists_of_isBoundary
    {text : String}
    {place : Nat}
    (hPlace : IsBoundary text place) :
    ∃ front back,
      text = front ++ back ∧ place = front.utf8ByteSize := by
  rcases String.Pos.Raw.isValid_iff_exists_append.mp hPlace with
    ⟨front, back, hText, hSize⟩
  exact ⟨front, back, hText, congrArg String.Pos.Raw.byteIdx hSize⟩

theorem le_of_isBoundary
    {text : String}
    {place : Nat}
    (hPlace : IsBoundary text place) :
    place ≤ text.utf8ByteSize := by
  rcases exists_of_isBoundary hPlace with ⟨front, back, rfl, rfl⟩
  rw [String.utf8ByteSize_append]
  exact Nat.le_add_right _ _

/- A text whose characters are those of two parts. -/
theorem eq_append_of_toList
    {text : String}
    {front back : List Char}
    (hText : text.toList = front ++ back) :
    text = String.ofList front ++ String.ofList back ∧
      (String.ofList front).utf8ByteSize =
        (Utf8.encodeChars front).length := by
  refine ⟨?_, Utf8.utf8ByteSize_ofList front⟩
  rw [← String.ofList_append, ← hText, String.ofList_toList]

end Text

namespace Relay.Response

open Bytes

------------------------------------------------------------
-- Lines
------------------------------------------------------------

/- Whether the byte behind the code ends a reply. -/
def ends? : Option UInt8 → Option Bool
  | none => some true
  | some b =>
      if b == space then some true
      else if b == 45 then some false
      else none

/-
  Read the text of a line by its places. Gives nothing at all
  if the cut behind the code fails.
-/
def readLineAt?
    (line : String) : Option (Option Line) :=
  if line.utf8ByteSize < 3 ∨ ¬ Text.IsBoundary line 3 then
    some none
  else
    (Text.sliceTo? line 3).map fun digits => do
      let code ← Decimal.readWord? 32 digits.toList
      let last ← ends? (Utf8.encode line)[3]?
      return ⟨code, last, (Text.sliceFrom? line 4).getD ""⟩

/- Digits and signs are written in one byte. -/
theorem utf8Size_of_read?
    {text : List Char}
    {n : Nat}
    (hRead : Decimal.read? text = some n)
    {c : Char}
    (hMem : c ∈ text) :
    c.utf8Size = 1 := by
  rw [Char.utf8Size_eq_one_iff]
  rcases Decimal.isDigit_or_eq_of_read? hRead hMem with
    hDigit | rfl
  · have hRange := Char.isDigit_iff_toNat.mp hDigit
    change 48 ≤ c.val.toNat ∧ c.val.toNat ≤ 57 at hRange
    rw [UInt32.le_iff_toNat_le]
    exact Nat.le_trans hRange.2 (by decide)
  · decide

/- So such a text has as many bytes as characters. -/
theorem length_encodeChars_of_read?
    {text : List Char}
    {n : Nat}
    (hRead : Decimal.read? text = some n) :
    (Utf8.encodeChars text).length = text.length := by
  have hSizes : ∀ c ∈ text, c.utf8Size = 1 :=
    fun _ hMem => utf8Size_of_read? hRead hMem
  simp only [Utf8.encodeChars, List.length_flatMap,
    String.length_utf8EncodeChar]
  rw [List.map_congr_left hSizes]
  simp

/- A mark is known by its first byte. -/
theorem ends?_head?_encodeChar
    (mark : Char) :
    ends? (String.utf8EncodeChar mark).head? =
      if mark == ' ' then some true
        else if mark == '-' then some false
        else none := by
  have hSpace :=
    Utf8.head?_encodeChar_eq_some_iff
      (by decide : space < 0x80) (c := mark)
  have hHyphen :=
    Utf8.head?_encodeChar_eq_some_iff
      (by decide : (45 : UInt8) < 0x80) (c := mark)
  cases hHead : (String.utf8EncodeChar mark).head? with
  | none =>
      exact absurd (List.head?_eq_none_iff.mp hHead)
        (Utf8.utf8EncodeChar_ne_nil mark)
  | some b =>
      rw [hHead, Option.some.injEq] at hSpace hHyphen
      simp only [ends?, beq_iff_eq, hSpace, hHyphen]
      rfl

/- The text behind the code and a mark of one byte. -/
theorem sliceFrom?_four
    {line : String}
    {code text : List Char}
    {mark : Char}
    (hLine : line.toList = (code ++ [mark]) ++ text)
    (hCode : (Utf8.encodeChars code).length = 3)
    (hMark : mark.utf8Size = 1) :
    Text.sliceFrom? line 4 = some (String.ofList text) := by
  rcases Text.eq_append_of_toList hLine with ⟨hSplit, hSize⟩
  have hFour : (Utf8.encodeChars (code ++ [mark])).length = 4 := by
    rw [Utf8.encodeChars_append, Utf8.encodeChars_cons,
      List.length_append, hCode, List.length_append,
      String.length_utf8EncodeChar, hMark]
    rfl
  rw [hSplit, ← hFour, ← hSize]
  exact Text.sliceFrom?_append _ _

/- The byte behind the code is the first one of the mark. -/
theorem getElem?_encode_three
    {line : String}
    {code rest : List Char}
    (hLine : line.toList = code ++ rest)
    (hCode : (Utf8.encodeChars code).length = 3) :
    (Utf8.encode line)[3]? = (Utf8.encodeChars rest).head? := by
  rw [Utf8.encode, hLine, Utf8.encodeChars_append,
    List.getElem?_append_right (Nat.le_of_eq hCode), hCode,
    List.head?_eq_getElem?]

/- A line is cut behind a code of three bytes. -/
theorem readLineAt?_of_code
    {line : String}
    {code rest : List Char}
    (hLine : line.toList = code ++ rest)
    (hCode : (Utf8.encodeChars code).length = 3) :
    readLineAt? line =
      some do
        let n ← Decimal.readWord? 32 code
        let last ← ends? (Utf8.encodeChars rest).head?
        return ⟨n, last, (Text.sliceFrom? line 4).getD ""⟩ := by
  rcases Text.eq_append_of_toList hLine with ⟨hSplit, hSize⟩
  rw [hCode] at hSize
  have hPlace : Text.IsBoundary line 3 := by
    rw [hSplit, ← hSize]
    exact Text.isBoundary_append _ _
  have hCut :
      Text.sliceTo? line 3 = some (String.ofList code) := by
    rw [hSplit, ← hSize]
    exact Text.sliceTo?_append _ _
  have hGuard :
      ¬ (line.utf8ByteSize < 3 ∨ ¬ Text.IsBoundary line 3) := by
    rintro (hShort | hInside)
    · exact absurd (Text.le_of_isBoundary hPlace)
        (Nat.not_le_of_lt hShort)
    · exact hInside hPlace
  rw [readLineAt?, if_neg hGuard, hCut, Option.map_some,
    String.toList_ofList, getElem?_encode_three hLine hCode]

/- A line whose code can be read is read by its places. -/
theorem readLineAt?_of_read?
    {line : String}
    {a b c : Char}
    {rest : List Char}
    {code : Nat}
    (hLine : line.toList = [a, b, c] ++ rest)
    (hRead : Decimal.read? [a, b, c] = some code) :
    readLineAt? line = some (readLine? line) := by
  have hFits : code < 2 ^ 32 := by
    have hThree : code < 10 ^ 3 := Decimal.lt_of_read? hRead
    omega
  have hWord : Decimal.readWord? 32 [a, b, c] = some code :=
    Decimal.readWord?_eq_some_iff.mpr ⟨hFits, hRead⟩
  have hCode : (Utf8.encodeChars [a, b, c]).length = 3 :=
    length_encodeChars_of_read? hRead
  have hChars : line.toList = a :: b :: c :: rest := hLine
  rw [readLineAt?_of_code hLine hCode, hWord]
  simp only [readLine?, hChars, hRead]
  cases rest with
  | nil =>
      have hBehind : ¬ Text.IsBoundary line 4 := by
        intro hFour
        rcases Text.eq_append_of_toList hLine with
          ⟨hSplit, hSize⟩
        have hPlace := Text.le_of_isBoundary hFour
        rw [hSplit, String.utf8ByteSize_append, hSize, hCode]
          at hPlace
        exact absurd hPlace (by decide)
      have hText : Text.sliceFrom? line 4 = none :=
        dif_neg hBehind
      simp [Utf8.encodeChars, ends?, hText]
  | cons mark text =>
      have hParts : line.toList = ([a, b, c] ++ [mark]) ++ text :=
        hLine
      have hFour :
          mark.utf8Size = 1 →
            Text.sliceFrom? line 4 = some (String.ofList text) :=
        sliceFrom?_four hParts hCode
      rw [Utf8.encodeChars_cons,
        List.head?_append_of_ne_nil _
          (Utf8.utf8EncodeChar_ne_nil mark),
        ends?_head?_encodeChar]
      by_cases hSpace : mark = ' '
      · rw [hFour (by rw [hSpace]; rfl)]
        simp [hSpace]
      · by_cases hHyphen : mark = '-'
        · rw [hFour (by rw [hHyphen]; rfl)]
          simp [hHyphen]
        · simp [hSpace, hHyphen]

/- A code that is cut off is three characters. -/
theorem exists_read?_of_readWord?
    {line front back : String}
    (hSplit : line = front ++ back)
    (hSize : front.utf8ByteSize = 3)
    {code : Nat}
    (hWord : Decimal.readWord? 32 front.toList = some code) :
    ∃ a b c rest,
      line.toList = a :: b :: c :: rest ∧
        Decimal.read? [a, b, c] = some code := by
  have hRead := (Decimal.readWord?_eq_some_iff.mp hWord).2
  have hLength : front.toList.length = 3 := by
    rw [← length_encodeChars_of_read? hRead,
      ← Utf8.utf8ByteSize_ofList, String.ofList_toList, hSize]
  rcases List.length_eq_three.mp hLength with ⟨a, b, c, hThree⟩
  refine ⟨a, b, c, back.toList, ?_, hThree ▸ hRead⟩
  rw [hSplit, String.toList_append, hThree]
  rfl

/-
  No cut in a line fails, and what is read by places is what
  is read by characters.
-/
theorem readLineAt?_eq
    (line : String) :
    readLineAt? line = some (readLine? line) := by
  by_cases hCode :
      ∃ a b c rest code,
        line.toList = a :: b :: c :: rest ∧
          Decimal.read? [a, b, c] = some code
  · rcases hCode with ⟨a, b, c, rest, code, hLine, hRead⟩
    exact readLineAt?_of_read? hLine hRead
  · -- Neither reads anything without a code in front.
    have hChars : readLine? line = none := by
      unfold readLine?
      split
      · rename_i a b c rest hLine
        cases hRead : Decimal.read? [a, b, c] with
        | none => rfl
        | some code =>
            exact absurd ⟨a, b, c, rest, code, hLine, hRead⟩ hCode
      · rfl
    rw [hChars, readLineAt?]
    split
    · rfl
    · rename_i hGuard
      have hPlace := not_not.mp (not_or.mp hGuard).2
      rcases Text.exists_of_isBoundary hPlace with
        ⟨front, back, hSplit, hSize⟩
      have hCut : Text.sliceTo? line 3 = some front := by
        rw [hSplit, hSize]
        exact Text.sliceTo?_append front back
      cases hWord : Decimal.readWord? 32 front.toList with
      | none => simp [hCut, hWord]
      | some code =>
          rcases exists_read?_of_readWord? hSplit hSize.symm hWord
            with ⟨a, b, c, rest, hThree, hRead⟩
          exact absurd ⟨a, b, c, rest, code, hThree, hRead⟩ hCode

------------------------------------------------------------
-- Replies
------------------------------------------------------------

/-
  The line at a place in a buffer without its line feed, and
  the place behind it, if there is a complete line. Gives
  nothing at all if a cut fails.
-/
def rawLineAt?
    (buffer : Bytes)
    (place : Nat) : Option (Option (Bytes × Nat)) :=
  match buffer.slice? place buffer.length with
  | none => none
  | some left =>
      match left.findIdx? (· == lf) with
      | none => some none
      | some size =>
          (buffer.slice? place (place + size)).map fun raw =>
            some (raw, place + size + 1)

/- There is a line feed behind the line. -/
theorem lt_of_rawLineAt?
    {buffer raw : Bytes}
    {place next : Nat}
    (hRaw : rawLineAt? buffer place = some (some (raw, next))) :
    place < next ∧ next ≤ buffer.length := by
  unfold rawLineAt? at hRaw
  cases hLeft : buffer.slice? place buffer.length with
  | none =>
      rw [hLeft] at hRaw
      cases hRaw
  | some left =>
      rw [hLeft] at hRaw
      cases hFind : left.findIdx? (· == lf) with
      | none => simp [hFind] at hRaw
      | some size =>
          have hSize :=
            (List.findIdx?_eq_some_iff_findIdx_eq.mp hFind).1
          have hLength := (eq_of_slice? hLeft).2
          simp only [hFind, Option.map_eq_some_iff,
            Option.some.injEq, Prod.mk.injEq] at hRaw
          rcases hRaw with ⟨_, _, _, hNext⟩
          omega

/- What has no line feed holds no complete line. -/
theorem rawLineAt?_of_lf_not_mem
    (front : Bytes)
    {data : Bytes}
    (hNone : lf ∉ data) :
    rawLineAt? (front ++ data) front.length = some none := by
  have hLeft := slice?_append front data []
  rw [List.append_nil, ← List.length_append] at hLeft
  have hFind : data.findIdx? (· == lf) = none := by
    rw [List.findIdx?_eq_none_iff]
    intro b hMem
    exact beq_eq_false_iff_ne.mpr fun hSame =>
      hNone (hSame ▸ hMem)
  rw [rawLineAt?, hLeft]
  simp only [hFind]

/- A line is cut out where it stands. -/
theorem rawLineAt?_line
    (front rest : Bytes)
    {raw : Bytes}
    (hNone : lf ∉ raw) :
    rawLineAt? (front ++ ((raw ++ [lf]) ++ rest)) front.length =
      some (some (raw, (front ++ (raw ++ [lf])).length)) := by
  have hLeft := slice?_append front (raw ++ [lf] ++ rest) []
  rw [List.append_nil, ← List.length_append] at hLeft
  have hRaw := slice?_append front raw ([lf] ++ rest)
  rw [← List.append_assoc raw] at hRaw
  have hBefore : raw.findIdx? (· == lf) = none := by
    rw [List.findIdx?_eq_none_iff]
    intro b hMem
    exact beq_eq_false_iff_ne.mpr fun hSame =>
      hNone (hSame ▸ hMem)
  have hFind :
      (raw ++ [lf] ++ rest).findIdx? (· == lf) =
        some raw.length := by
    rw [List.append_assoc, List.findIdx?_append, hBefore,
      List.singleton_append, List.findIdx?_cons]
    simp
  rw [rawLineAt?, hLeft]
  simp only [hFind, hRaw]
  simp [Nat.add_assoc]

/-
  Read a reply from a place on, given the code and the texts
  of its lines so far, the texts in reverse. Gives the reply
  and the place behind it, and nothing at all if a cut fails.
-/
def parseAt?
    (buffer : Bytes)
    (place : Nat)
    (code : Option Nat)
    (texts : List String) :
    Option (Except DeliveryError (Option (Response × Nat))) :=
  match _ : rawLineAt? buffer place with
  | none => none
  | some none => some (.ok none)
  | some (some (raw, next)) =>
      let line := Utf8.decodeLossy (dropCr raw)
      match readLineAt? line with
      | none => none
      | some none => some (.error (.malformedReply line))
      | some (some read) =>
          if code.any (· != read.code) then
            some (.error (.malformedReply line))
          else
            let texts := read.text :: texts
            if read.last then
              some (.ok (some (⟨read.code, texts.reverse⟩, next)))
            else
              parseAt? buffer next (some read.code) texts
termination_by buffer.length - place
decreasing_by
  rename_i hRaw _ _
  have hNext := lt_of_rawLineAt? hRaw
  omega

/- A reply with the place behind it in place of what is left. -/
def counted
    (size : Nat) :
    Except DeliveryError (Option (Response × Bytes)) →
      Except DeliveryError (Option (Response × Nat)) :=
  Except.map (Option.map fun found =>
    (found.1, size - found.2.length))

theorem parseAt?_of_rawLineAt?_none
    {buffer : Bytes}
    {place : Nat}
    (hRaw : rawLineAt? buffer place = some none)
    (code : Option Nat)
    (texts : List String) :
    parseAt? buffer place code texts = some (.ok none) := by
  rw [parseAt?]
  split <;> simp_all

theorem parseAt?_of_rawLineAt?_some
    {buffer raw : Bytes}
    {place next : Nat}
    (hRaw : rawLineAt? buffer place = some (some (raw, next)))
    (code : Option Nat)
    (texts : List String) :
    parseAt? buffer place code texts =
      match readLine? (Utf8.decodeLossy (dropCr raw)) with
      | none =>
          some (.error (.malformedReply
            (Utf8.decodeLossy (dropCr raw))))
      | some read =>
          if code.any (· != read.code) then
            some (.error (.malformedReply
              (Utf8.decodeLossy (dropCr raw))))
          else if read.last then
            some (.ok (some
              (⟨read.code, (read.text :: texts).reverse⟩,
                next)))
          else
            parseAt? buffer next (some read.code)
              (read.text :: texts) := by
  rw [parseAt?]
  split
  · simp_all
  · simp_all
  · rename_i otherRaw otherNext hOther
    rw [hRaw, Option.some.injEq, Option.some.injEq,
      Prod.mk.injEq] at hOther
    rcases hOther with ⟨rfl, rfl⟩
    simp only [readLineAt?_eq]
    cases readLine? (Utf8.decodeLossy (dropCr raw)) <;> rfl

/- A line in front is read first. -/
theorem parseFrom_line
    {line : Bytes}
    (hLine : line.IsLine)
    (code : Option Nat)
    (texts : List String)
    (rest : Bytes) :
    parseFrom code texts (line ++ rest) =
      match readLine? (lineText line) with
      | none => .error (.malformedReply (lineText line))
      | some read =>
          if code.any (· != read.code) then
            .error (.malformedReply (lineText line))
          else if read.last then
            .ok (some
              (⟨read.code, (read.text :: texts).reverse⟩, rest))
          else
            parseFrom (some read.code) (read.text :: texts)
              rest := by
  rcases hLine with ⟨raw, rfl, hRaw⟩
  have hSplit : splitLine (raw ++ [lf]) = (raw ++ [lf], []) :=
    splitLine_append_lf hRaw []
  have hParse :=
    parseFrom_append_of_mem (by simp : lf ∈ raw ++ [lf]) code
      texts rest
  rwa [hSplit] at hParse

/-
  No cut in a buffer fails, and what is read by places is
  what is read by splitting off lines.
-/
theorem parseAt?_append
    (front : Bytes)
    (code : Option Nat)
    (texts : List String)
    (data : Bytes) :
    parseAt? (front ++ data) front.length code texts =
      some (counted (front ++ data).length
        (parseFrom code texts data)) := by
  induction data using lineInduction generalizing front code texts
    with
  | tail data hNone =>
      rw [parseFrom, if_neg (by simpa using hNone)]
      exact parseAt?_of_rawLineAt?_none
        (rawLineAt?_of_lf_not_mem front hNone) code texts
  | line line rest hLine ih =>
      have hNext := ih (front ++ line)
      rw [parseFrom_line hLine]
      rcases hLine with ⟨raw, rfl, hRaw⟩
      have hText :
          lineText (raw ++ [lf]) = Utf8.decodeLossy (dropCr raw) := by
        simp [lineText, chomp]
      rw [parseAt?_of_rawLineAt?_some
        (rawLineAt?_line front rest hRaw), hText]
      cases readLine? (Utf8.decodeLossy (dropCr raw)) with
      | none => rfl
      | some read =>
          simp only
          split
          · rfl
          · split
            · simp [counted, Except.map]
              omega
            · rw [← List.append_assoc]
              exact hNext _ _

/- No cut fails in reading the first reply of a buffer. -/
theorem parseAt?_zero
    (buffer : Bytes) :
    parseAt? buffer 0 none [] =
      some (counted buffer.length (parse buffer)) :=
  parseAt?_append [] none [] buffer

end Relay.Response

end MailFilter
