import MailFilter.Text.Utf8
import Mathlib.Tactic.IntervalCases

/-
  How text is read back from UTF-8.

  An ASCII byte is a character by itself wherever it stands,
  so what is read falls apart at every one of them. And what
  was written as UTF-8 is read back as it was.

  Main statements:
    * `Utf8.scan_append_ascii`
    * `Utf8.scan_encodeChars`
    * `Utf8.decodeLossy_encode`
    * `Utf8.decode?_encode_append`
    * `Utf8.decode?_append_ascii`
-/

namespace MailFilter.Utf8

------------------------------------------------------------
-- One Byte
------------------------------------------------------------

/- An ASCII byte is a character by itself. -/
theorem lead_ascii
    {b : UInt8}
    (hAscii : b < 0x80) :
    lead b = .char (Char.ofNat b.toNat) := by
  simp [lead, hAscii]

theorem toNat_ofNat_of_isValidChar
    {n : Nat}
    (hValid : n.isValidChar) :
    (Char.ofNat n).toNat = n := by
  rw [Char.ofNat, dif_pos hValid]
  rfl

/-
  A sequence that a first byte can have opened: no ASCII byte
  continues it, and it never stands for an ASCII character.
-/
structure Partial.IsProper
    (p : Partial) : Prop where
  low : 0x80 ≤ p.low.toNat
  last : p.need ≤ 1 → 2 ≤ p.value
  more : 1 < p.need →
    2 ≤ p.value * 64 + (p.low.toNat - 0x80)

theorem isProper_of_lead
    {b : UInt8}
    {p : Partial}
    (hLead : lead b = .opens p) :
    p.IsProper := by
  unfold lead at hLead
  repeat' split at hLead
  all_goals cases hLead
  all_goals
    simp only [UInt8.lt_iff_toNat_lt, beq_iff_eq,
      ← UInt8.toNat_inj, UInt8.reduceToNat] at *
    constructor <;> simp only [UInt8.reduceToNat] <;> omega

/-
  An item that scanning a byte may add: an ill-formed piece,
  the byte itself, or a character above ASCII. The character
  with the number 0 stands for all that is none.
-/
def IsItemOf
    (b : UInt8)
    (item : Option Char) : Prop :=
  ∀ c, item = some c → 0 < c.toNat → c.toNat < 0x80 →
    b.toNat = c.toNat

theorem isItemOf_of_lead
    {b : UInt8}
    {c : Char}
    (hLead : lead b = .char c) :
    IsItemOf b (some c) := by
  intro d hEq _hPos _hAscii
  cases hEq
  unfold lead at hLead
  repeat' split at hLead
  all_goals cases hLead
  rename_i hLow
  rw [UInt8.lt_iff_toNat_lt] at hLow
  simp only [UInt8.reduceToNat] at hLow
  exact (toNat_ofNat_of_isValidChar (Or.inl (by omega))).symm

/- The last byte of a sequence gives no ASCII character. -/
theorem isItemOf_last
    {b : UInt8}
    {p : Partial}
    (hProper : p.IsProper)
    (hLast : p.need ≤ 1) :
    IsItemOf b (some (Char.ofNat
      (p.value * 64 + (b.toNat - 0x80)))) := by
  have hValue := hProper.last hLast
  generalize hNumber :
    p.value * 64 + (b.toNat - 0x80) = n
  intro d hEq hPos hAscii
  rw [← Option.some.inj hEq] at hPos hAscii
  by_cases hValid : n.isValidChar
  · rw [toNat_ofNat_of_isValidChar hValid] at hAscii
    omega
  · rw [Char.ofNat, dif_neg hValid] at hPos
    exact absurd hPos (by decide)

/- What continues no sequence is scanned anew. -/
theorem scanFrom_breaks
    {p : Partial}
    {b : UInt8}
    (hRange : ¬ (p.low ≤ b && b ≤ p.high) = true)
    (found : List (Option Char))
    (rest : Bytes) :
    scanFrom found (some p) (b :: rest) =
      scanFrom (none :: found) none (b :: rest) := by
  simp [scanFrom, hRange]

/-
  A byte that continues nothing adds some items and leaves
  some sequence under way.
-/
theorem exists_scanFrom_none_cons
    (b : UInt8) :
    ∃ items next,
      (∀ p ∈ next, Partial.IsProper p) ∧
        (∀ item ∈ items, IsItemOf b item) ∧
        ∀ found rest,
          scanFrom found none (b :: rest) =
            scanFrom (items ++ found) next rest := by
  cases hLead : lead b with
  | char c =>
      refine ⟨[some c], none, by simp, ?_, ?_⟩
      · simpa using isItemOf_of_lead hLead
      · intro found rest
        simp [scanFrom, hLead]
  | opens q =>
      refine ⟨[], some q, ?_, by simp, ?_⟩
      · intro p hEq
        rw [← Option.some.inj hEq]
        exact isProper_of_lead hLead
      · intro found rest
        simp [scanFrom, hLead]
  | illFormed =>
      refine ⟨[none], none, by simp, by simp [IsItemOf], ?_⟩
      intro found rest
      simp [scanFrom, hLead]

/-
  Scanning a byte adds some items and leaves some sequence
  under way, whatever was found before and comes after.
-/
theorem exists_scanFrom_cons
    {sequence : Option Partial}
    (hProper : ∀ p ∈ sequence, p.IsProper)
    (b : UInt8) :
    ∃ items next,
      (∀ p ∈ next, Partial.IsProper p) ∧
        (∀ item ∈ items, IsItemOf b item) ∧
        ∀ found rest,
          scanFrom found sequence (b :: rest) =
            scanFrom (items ++ found) next rest := by
  cases sequence with
  | none => exact exists_scanFrom_none_cons b
  | some p =>
      have hSelf : p.IsProper := hProper p rfl
      by_cases hRange : (p.low ≤ b && b ≤ p.high) = true
      · by_cases hLast : p.need ≤ 1
        · refine ⟨[some (Char.ofNat
            (p.value * 64 + (b.toNat - 0x80)))], none,
            by simp, ?_, ?_⟩
          · simpa using isItemOf_last hSelf hLast
          · intro found rest
            simp [scanFrom, hRange, hLast]
        · refine ⟨[], some ⟨p.need - 1, 0x80, 0xBF,
            p.value * 64 + (b.toNat - 0x80)⟩, ?_, by simp, ?_⟩
          · intro q hEq
            rw [← Option.some.inj hEq]
            have hMore := hSelf.more (Nat.lt_of_not_le hLast)
            have hLow : p.low.toNat ≤ b.toNat := by
              simp only [Bool.and_eq_true,
                decide_eq_true_eq] at hRange
              exact UInt8.le_iff_toNat_le.mp hRange.1
            constructor <;> simp <;> omega
          · intro found rest
            simp [scanFrom, hRange, hLast]
      · -- The sequence breaks off, which adds one item.
        rcases exists_scanFrom_none_cons b with
          ⟨items, next, hNext, hItems, hScan⟩
        refine ⟨items ++ [none], next, hNext, ?_, ?_⟩
        · intro item hItem
          rcases List.mem_append.mp hItem with hOld | hBroken
          · exact hItems item hOld
          · simp [List.mem_singleton.mp hBroken, IsItemOf]
        · intro found rest
          rw [scanFrom_breaks hRange, hScan]
          simp

------------------------------------------------------------
-- Cutting
------------------------------------------------------------

/- What was found before stays in front. -/
theorem scanFrom_eq_append
    (found : List (Option Char))
    {sequence : Option Partial}
    (hProper : ∀ p ∈ sequence, p.IsProper)
    (data : Bytes) :
    scanFrom found sequence data =
      found.reverse ++ scanFrom [] sequence data := by
  induction data generalizing found sequence with
  | nil => cases sequence <;> simp [scanFrom]
  | cons b rest ih =>
      rcases exists_scanFrom_cons hProper b with
        ⟨items, next, hNext, _hItems, hScan⟩
      rw [hScan, hScan, ih _ hNext, ih (items ++ []) hNext]
      simp

/- Where no sequence is under way, scanning starts anew. -/
theorem scanFrom_none
    (found : List (Option Char))
    (data : Bytes) :
    scanFrom found none data = found.reverse ++ scan data :=
  scanFrom_eq_append found (by simp) data

theorem scan_cons_ascii
    {b : UInt8}
    (hAscii : b < 0x80)
    (rest : Bytes) :
    scan (b :: rest) =
      some (Char.ofNat b.toNat) :: scan rest := by
  rw [scan, scanFrom, lead_ascii hAscii]
  exact scanFrom_none [some (Char.ofNat b.toNat)] rest

/-
  A sequence under way ends at an ASCII byte, and scanning
  starts anew.
-/
theorem scanFrom_append_ascii
    {sequence : Option Partial}
    (hProper : ∀ p ∈ sequence, p.IsProper)
    (data : Bytes)
    {b : UInt8}
    (hAscii : b < 0x80)
    (rest : Bytes) :
    scanFrom [] sequence (data ++ b :: rest) =
      scanFrom [] sequence data ++ scan (b :: rest) := by
  induction data generalizing sequence with
  | nil =>
      cases sequence with
      | none => rfl
      | some p =>
          have hLow : ¬ p.low ≤ b := by
            have hFirst := (hProper p rfl).low
            rw [UInt8.le_iff_toNat_le]
            rw [UInt8.lt_iff_toNat_lt] at hAscii
            simp at hAscii
            omega
          have hRange : ¬ (p.low ≤ b && b ≤ p.high) = true := by
            simp [hLow]
          rw [List.nil_append, scanFrom_breaks hRange,
            scanFrom_none]
          rfl
  | cons d data ih =>
      rcases exists_scanFrom_cons hProper d with
        ⟨items, next, hNext, _hItems, hScan⟩
      rw [List.cons_append, hScan, hScan,
        scanFrom_eq_append _ hNext, ih hNext,
        scanFrom_eq_append (items ++ []) hNext]
      simp

/- What is scanned falls apart at an ASCII byte. -/
theorem scan_append_ascii
    (data : Bytes)
    {b : UInt8}
    (hAscii : b < 0x80)
    (rest : Bytes) :
    scan (data ++ b :: rest) = scan data ++ scan (b :: rest) :=
  scanFrom_append_ascii (by simp) data hAscii rest

/- The ASCII characters that are read stand in the bytes. -/
theorem mem_of_mem_scanFrom
    {sequence : Option Partial}
    (hProper : ∀ p ∈ sequence, p.IsProper)
    {data : Bytes}
    {c : Char}
    (hPos : 0 < c.toNat)
    (hAscii : c.toNat < 0x80)
    (hMem : some c ∈ scanFrom [] sequence data) :
    ∃ b ∈ data, b.toNat = c.toNat := by
  induction data generalizing sequence with
  | nil =>
      cases sequence <;> simp [scanFrom] at hMem
  | cons b data ih =>
      rcases exists_scanFrom_cons hProper b with
        ⟨items, next, hNext, hItems, hScan⟩
      rw [hScan, scanFrom_eq_append _ hNext] at hMem
      rcases List.mem_append.mp hMem with hHere | hLater
      · have hItem : some c ∈ items := by simpa using hHere
        exact ⟨b, List.mem_cons_self,
          hItems _ hItem c rfl hPos hAscii⟩
      · rcases ih hNext hLater with ⟨d, hData, hEq⟩
        exact ⟨d, List.mem_cons_of_mem b hData, hEq⟩

theorem mem_of_mem_decodeChars
    {data : Bytes}
    {c : Char}
    (hPos : 0 < c.toNat)
    (hAscii : c.toNat < 0x80)
    (hMem : c ∈ decodeChars data) :
    ∃ b ∈ data, b.toNat = c.toNat := by
  rcases List.mem_map.mp hMem with ⟨item, hItem, hEq⟩
  cases item with
  | none =>
      -- The replacement character is not ASCII.
      rw [← hEq] at hAscii
      exact absurd hAscii (by decide)
  | some d =>
      cases hEq
      exact mem_of_mem_scanFrom (by simp) hPos hAscii hItem

/- An ASCII byte in front is the first character. -/
theorem decodeChars_cons_ascii
    {b : UInt8}
    (hAscii : b < 0x80)
    (rest : Bytes) :
    decodeChars (b :: rest) =
      Char.ofNat b.toNat :: decodeChars rest := by
  simp [decodeChars, scan_cons_ascii hAscii]

/- What is read falls apart at an ASCII byte. -/
theorem decodeChars_append_ascii
    (data : Bytes)
    {b : UInt8}
    (hAscii : b < 0x80)
    (rest : Bytes) :
    decodeChars (data ++ b :: rest) =
      decodeChars data ++ decodeChars (b :: rest) := by
  simp [decodeChars, scan_append_ascii data hAscii]

------------------------------------------------------------
-- Reading Back
------------------------------------------------------------

theorem toNat_ofNat_of_lt
    {n : Nat}
    (hLt : n < 256) :
    (UInt8.ofNat n).toNat = n := by
  simp [Nat.mod_eq_of_lt hLt]

/- A first byte opens a sequence. -/
theorem scanFrom_opens
    {b : UInt8}
    {p : Partial}
    (hLead : lead b = .opens p)
    (found : List (Option Char))
    (rest : Bytes) :
    scanFrom found none (b :: rest) =
      scanFrom found (some p) rest := by
  simp [scanFrom, hLead]

/- A byte in range that is not the last one goes on. -/
theorem scanFrom_more
    {need value : Nat}
    {low high b : UInt8}
    (hNeed : 1 < need)
    (hLow : low ≤ b)
    (hHigh : b ≤ high)
    (found : List (Option Char))
    (rest : Bytes) :
    scanFrom found (some ⟨need, low, high, value⟩) (b :: rest) =
      scanFrom found
          (some ⟨need - 1, 0x80, 0xBF,
            value * 64 + (b.toNat - 0x80)⟩) rest := by
  simp [scanFrom, hLow, hHigh, Nat.not_le.mpr hNeed]

/- The last byte of a sequence gives its character. -/
theorem scanFrom_last
    {value : Nat}
    {low high b : UInt8}
    (hLow : low ≤ b)
    (hHigh : b ≤ high)
    (found : List (Option Char))
    (rest : Bytes) :
    scanFrom found (some ⟨1, low, high, value⟩) (b :: rest) =
      scanFrom
          (some (Char.ofNat
            (value * 64 + (b.toNat - 0x80))) :: found)
          none rest := by
  simp [scanFrom, hLow, hHigh]

/- The first bytes that open a sequence of two. -/
theorem lead_two
    {n : Nat}
    (hLow : 0xC2 ≤ n)
    (hHigh : n < 0xE0) :
    lead (UInt8.ofNat n) = .opens ⟨1, 0x80, 0xBF, n - 0xC0⟩ := by
  interval_cases n <;> rfl

/-
  The first bytes that open a sequence of three. The range of
  the second byte depends on the first one.
-/
theorem lead_three
    {n : Nat}
    (hLow : 0xE0 ≤ n)
    (hHigh : n < 0xF0) :
    lead (UInt8.ofNat n) = .opens ⟨2,
      if n = 0xE0 then 0xA0 else 0x80,
      if n = 0xED then 0x9F else 0xBF, n - 0xE0⟩ := by
  interval_cases n <;> rfl

/- The first bytes that open a sequence of four. -/
theorem lead_four
    {n : Nat}
    (hLow : 0xF0 ≤ n)
    (hHigh : n < 0xF5) :
    lead (UInt8.ofNat n) = .opens ⟨3,
      if n = 0xF0 then 0x90 else 0x80,
      if n = 0xF4 then 0x8F else 0xBF, n - 0xF0⟩ := by
  interval_cases n <;> rfl

/- The low six bits of a number make a byte that goes on. -/
theorem continuation_ofNat
    (v : Nat) :
    0x80 ≤ UInt8.ofNat (v % 0x40 + 0x80) ∧
      UInt8.ofNat (v % 0x40 + 0x80) ≤ 0xBF := by
  rw [UInt8.le_iff_toNat_le, UInt8.le_iff_toNat_le,
    toNat_ofNat_of_lt (by omega)]
  have hLow : (0x80 : UInt8).toNat = 0x80 := rfl
  have hHigh : (0xBF : UInt8).toNat = 0xBF := rfl
  omega

/- A character of two bytes. -/
theorem scan_two
    {v : Nat}
    (hLow : 0x7f < v)
    (hHigh : v ≤ 0x7ff)
    (rest : Bytes) :
    scan (UInt8.ofNat (v / 64 % 32 + 0xc0) ::
        UInt8.ofNat (v % 0x40 + 0x80) :: rest) =
      some (Char.ofNat v) :: scan rest := by
  have hFirst := lead_two (n := v / 64 % 32 + 0xc0)
    (by omega) (by omega)
  have hLast := continuation_ofNat v
  have hValue :
      (v / 64 % 32 + 0xc0 - 0xC0) * 64 +
        (v % 0x40 + 0x80 - 0x80) = v := by
    omega
  rw [scan, scanFrom_opens hFirst,
    scanFrom_last hLast.1 hLast.2,
    toNat_ofNat_of_lt (by omega), hValue, scanFrom_none]
  rfl

/- A character of three bytes. -/
theorem scan_three
    {v : Nat}
    (hLow : 0x7ff < v)
    (hHigh : v ≤ 0xffff)
    (hValid : v < 0xD800 ∨ 0xDFFF < v)
    (rest : Bytes) :
    scan (UInt8.ofNat (v / 4096 % 16 + 0xe0) ::
        UInt8.ofNat (v / 64 % 64 + 0x80) ::
        UInt8.ofNat (v % 0x40 + 0x80) :: rest) =
      some (Char.ofNat v) :: scan rest := by
  have hFirst := lead_three (n := v / 4096 % 16 + 0xe0)
    (by omega) (by omega)
  have hSecond :
      (if v / 4096 % 16 + 0xe0 = 0xE0 then 0xA0 else 0x80) ≤
          UInt8.ofNat (v / 64 % 64 + 0x80) ∧
        UInt8.ofNat (v / 64 % 64 + 0x80) ≤
          (if v / 4096 % 16 + 0xe0 = 0xED
              then 0x9F else 0xBF) := by
    rw [UInt8.le_iff_toNat_le, UInt8.le_iff_toNat_le,
      toNat_ofNat_of_lt (by omega)]
    constructor <;> split <;> simp <;> omega
  have hLast := continuation_ofNat v
  have hValue :
      ((v / 4096 % 16 + 0xe0 - 0xE0) * 64 +
          (v / 64 % 64 + 0x80 - 0x80)) * 64 +
        (v % 0x40 + 0x80 - 0x80) = v := by
    omega
  rw [scan, scanFrom_opens hFirst,
    scanFrom_more (by decide) hSecond.1 hSecond.2,
    scanFrom_last hLast.1 hLast.2,
    toNat_ofNat_of_lt (by omega),
    toNat_ofNat_of_lt (by omega), hValue, scanFrom_none]
  rfl

/- A character of four bytes. -/
theorem scan_four
    {v : Nat}
    (hLow : 0xffff < v)
    (hHigh : v < 0x110000)
    (rest : Bytes) :
    scan (UInt8.ofNat (v / 262144 % 8 + 0xf0) ::
        UInt8.ofNat (v / 4096 % 64 + 0x80) ::
        UInt8.ofNat (v / 64 % 64 + 0x80) ::
        UInt8.ofNat (v % 0x40 + 0x80) :: rest) =
      some (Char.ofNat v) :: scan rest := by
  have hFirst := lead_four (n := v / 262144 % 8 + 0xf0)
    (by omega) (by omega)
  have hSecond :
      (if v / 262144 % 8 + 0xf0 = 0xF0 then 0x90 else 0x80) ≤
          UInt8.ofNat (v / 4096 % 64 + 0x80) ∧
        UInt8.ofNat (v / 4096 % 64 + 0x80) ≤
          (if v / 262144 % 8 + 0xf0 = 0xF4
              then 0x8F else 0xBF) := by
    rw [UInt8.le_iff_toNat_le, UInt8.le_iff_toNat_le,
      toNat_ofNat_of_lt (by omega)]
    constructor <;> split <;> simp <;> omega
  have hThird := continuation_ofNat (v / 64)
  have hLast := continuation_ofNat v
  have hValue :
      (((v / 262144 % 8 + 0xf0 - 0xF0) * 64 +
          (v / 4096 % 64 + 0x80 - 0x80)) * 64 +
          (v / 64 % 64 + 0x80 - 0x80)) * 64 +
        (v % 0x40 + 0x80 - 0x80) = v := by
    omega
  rw [scan, scanFrom_opens hFirst,
    scanFrom_more (by decide) hSecond.1 hSecond.2,
    scanFrom_more (by decide) hThird.1 hThird.2,
    scanFrom_last hLast.1 hLast.2,
    toNat_ofNat_of_lt (by omega),
    toNat_ofNat_of_lt (by omega),
    toNat_ofNat_of_lt (by omega), hValue, scanFrom_none]
  rfl

/- The bytes of a character are read back as it. -/
theorem scan_encodeChar
    (c : Char)
    (rest : Bytes) :
    scan (String.utf8EncodeChar c ++ rest) =
      some c :: scan rest := by
  have hSelf : Char.ofNat c.val.toNat = c :=
    Char.ofNat_toNat c
  have hValid : c.val.toNat < 0xD800 ∨
      (0xDFFF < c.val.toNat ∧ c.val.toNat < 0x110000) :=
    c.valid
  unfold String.utf8EncodeChar
  generalize c.val.toNat = v at hSelf hValid
  dsimp only
  rw [← hSelf]
  -- The cases are the lengths of a sequence.
  by_cases hOne : v ≤ 0x7f
  · have hByte : UInt8.ofNat v < 0x80 := by
      rw [UInt8.lt_iff_toNat_lt,
        toNat_ofNat_of_lt (by omega)]
      exact Nat.lt_succ_of_le hOne
    rw [if_pos hOne, List.singleton_append,
      scan_cons_ascii hByte, toNat_ofNat_of_lt (by omega)]
  rw [if_neg hOne]
  by_cases hTwo : v ≤ 0x7ff
  · rw [if_pos hTwo]
    exact scan_two (by omega) hTwo rest
  rw [if_neg hTwo]
  by_cases hThree : v ≤ 0xffff
  · rw [if_pos hThree]
    exact scan_three (by omega) hThree (by omega) rest
  · rw [if_neg hThree]
    exact scan_four (by omega) (by omega) rest

theorem encodeChars_cons
    (c : Char)
    (text : List Char) :
    encodeChars (c :: text) =
      String.utf8EncodeChar c ++ encodeChars text :=
  List.flatMap_cons

/- What follows a text that was written is read by itself. -/
theorem scan_encodeChars_append
    (text : List Char)
    (rest : Bytes) :
    scan (encodeChars text ++ rest) =
      text.map some ++ scan rest := by
  induction text with
  | nil => rfl
  | cons c text ih =>
      rw [encodeChars_cons, List.append_assoc, scan_encodeChar,
        ih]
      rfl

/- Text that was written is read back. -/
theorem scan_encodeChars
    (text : List Char) :
    scan (encodeChars text) = text.map some := by
  have hWhole := scan_encodeChars_append text []
  rwa [List.append_nil, show scan [] = [] from rfl,
    List.append_nil] at hWhole

/- Text that was written is read back. -/
@[simp]
theorem decodeLossy_encode
    (text : String) :
    decodeLossy (encode text) = text := by
  simp [decodeLossy, decodeChars, encode, scan_encodeChars]

/- An ASCII byte of a character is the character. -/
theorem eq_of_mem_encodeChar
    {c : Char}
    {b : UInt8}
    (hAscii : b < 0x80)
    (hMem : b ∈ String.utf8EncodeChar c) :
    Char.ofNat b.toNat = c := by
  rcases List.append_of_mem hMem with ⟨front, back, hBytes⟩
  have hScan := scan_encodeChar c []
  rw [List.append_nil, hBytes, scan_append_ascii _ hAscii,
    scan_cons_ascii hAscii] at hScan
  have hItem :
      some (Char.ofNat b.toNat) ∈ [some c] := by
    change _ ∈ some c :: scan []
    rw [← hScan]
    simp
  simpa using hItem

@[simp]
theorem encodeChars_append
    (front back : List Char) :
    encodeChars (front ++ back) =
      encodeChars front ++ encodeChars back :=
  List.flatMap_append

theorem encode_append
    (front back : String) :
    encode (front ++ back) = encode front ++ encode back := by
  simp [encode]

/- An ASCII byte that is written is a character. -/
theorem mem_of_mem_encode
    {b : UInt8}
    (hAscii : b < 0x80)
    {text : String}
    (hMem : b ∈ encode text) :
    Char.ofNat b.toNat ∈ text.toList := by
  have hText : decodeChars (encode text) = text.toList := by
    simp [decodeChars, encode, scan_encodeChars]
  rcases List.append_of_mem hMem with ⟨front, back, hSplit⟩
  rw [← hText, hSplit, decodeChars_append_ascii front hAscii,
    decodeChars_cons_ascii hAscii]
  exact List.mem_append_right _ List.mem_cons_self

/- Every character is written in some bytes. -/
theorem utf8EncodeChar_ne_nil
    (c : Char) :
    String.utf8EncodeChar c ≠ [] := by
  intro hNone
  have hLength := String.length_utf8EncodeChar c
  rw [hNone] at hLength
  exact absurd hLength.symm (Nat.ne_of_gt c.utf8Size_pos)

/- An ASCII byte is the first one of its own character only. -/
theorem head?_encodeChar_eq_some_iff
    {b : UInt8}
    (hAscii : b < 0x80)
    {c : Char} :
    (String.utf8EncodeChar c).head? = some b ↔
      c = Char.ofNat b.toNat := by
  constructor
  · intro hHead
    rcases List.head?_eq_some_iff.mp hHead with ⟨more, hMore⟩
    have hScan := scan_encodeChar c []
    rw [hMore, List.cons_append, scan_cons_ascii hAscii]
      at hScan
    exact (Option.some.inj (List.cons.inj hScan).1).symm
  · rintro rfl
    have hRange : b.toNat < 0x80 :=
      UInt8.lt_iff_toNat_lt.mp hAscii
    have hValue : (Char.ofNat b.toNat).val.toNat = b.toNat :=
      toNat_ofNat_of_isValidChar (Or.inl (by omega))
    simp only [String.utf8EncodeChar, hValue,
      if_pos (Nat.le_of_lt_succ hRange), UInt8.ofNat_toNat]
    rfl

/- A text has as many bytes as its characters together. -/
theorem utf8ByteSize_ofList
    (text : List Char) :
    (String.ofList text).utf8ByteSize =
      (encodeChars text).length := by
  induction text with
  | nil => rfl
  | cons c rest ih =>
      rw [String.ofList_cons, String.utf8ByteSize_append,
        String.utf8ByteSize_singleton, ih, encodeChars_cons,
        List.length_append, String.length_utf8EncodeChar]

------------------------------------------------------------
-- Reading Two Parts
------------------------------------------------------------

/- ASCII bytes are the characters that they stand for. -/
theorem scan_ascii
    {data : Bytes}
    (hAscii : ∀ b ∈ data, b < 0x80) :
    scan data =
      data.map fun b => some (Char.ofNat b.toNat) := by
  induction data with
  | nil => rfl
  | cons b data ih =>
      rcases List.forall_mem_cons.mp hAscii with
        ⟨hFirst, hMore⟩
      rw [scan_cons_ascii hFirst, ih hMore]
      rfl

theorem scan_append_of_ascii
    {back : Bytes}
    (hAscii : ∀ b ∈ back, b < 0x80)
    (front : Bytes) :
    scan (front ++ back) = scan front ++ scan back := by
  cases back with
  | nil =>
      rw [List.append_nil, show scan [] = [] from rfl,
        List.append_nil]
  | cons b back =>
      exact scan_append_ascii front
        (hAscii b List.mem_cons_self) back

/- What is scanned in two parts is well-formed if both are. -/
theorem decode?_append_of_scan
    {front back : Bytes}
    (hScan : scan (front ++ back) = scan front ++ scan back) :
    decode? (front ++ back) =
      (decode? front).bind fun text =>
        (decode? back).map (text ++ ·) := by
  have hText :
      decodeLossy (front ++ back) =
        decodeLossy front ++ decodeLossy back := by
    simp [decodeLossy, decodeChars, hScan]
  unfold decode?
  rw [hScan, List.all_append, hText]
  cases (scan front).all Option.isSome with
  | false => rfl
  | true =>
      cases (scan back).all Option.isSome with
      | false => rfl
      | true => rfl

/- Text that was written is well-formed. -/
theorem decode?_encode
    (text : String) :
    decode? (encode text) = some text := by
  have hScan : scan (encode text) = text.toList.map some :=
    scan_encodeChars text.toList
  have hAll : (scan (encode text)).all Option.isSome = true := by
    simp [hScan]
  rw [decode?, if_pos hAll, decodeLossy_encode]

/- So is what follows it, if all of it is. -/
theorem decode?_encode_append
    (text : String)
    (rest : Bytes) :
    decode? (encode text ++ rest) =
      (decode? rest).map (text ++ ·) := by
  have hScan :
      scan (encode text ++ rest) =
        scan (encode text) ++ scan rest := by
    rw [encode, scan_encodeChars_append, scan_encodeChars]
  rw [decode?_append_of_scan hScan, decode?_encode,
    Option.bind_some]

variable {back : Bytes}

/- Whether bytes are well-formed does not depend on ASCII. -/
theorem decode?_append_ascii
    (hAscii : ∀ b ∈ back, b < 0x80)
    (front : Bytes) :
    decode? (front ++ back) =
      (decode? front).map (· ++ decodeLossy back) := by
  have hAll : (scan back).all Option.isSome = true := by
    simp [scan_ascii hAscii]
  have hBack : decode? back = some (decodeLossy back) :=
    if_pos hAll
  rw [decode?_append_of_scan (scan_append_of_ascii hAscii front),
    hBack]
  cases decode? front with
  | none => rfl
  | some text => rfl

theorem decodeLossy_append_ascii
    (hAscii : ∀ b ∈ back, b < 0x80)
    (front : Bytes) :
    decodeLossy (front ++ back) =
      decodeLossy front ++ decodeLossy back := by
  simp [decodeLossy, decodeChars,
    scan_append_of_ascii hAscii front]

end MailFilter.Utf8
