import MailFilter.Proofs.Chain.Passage
import MailFilter.Proofs.Message.ReadBack
import MailFilter.Proofs.Smtp.Reception
import MailFilter.Proofs.Text.Lines
import MailFilter.Relay.DotStuffing

/-
  A message that a relay is sent is received as it was.

  What the client side of the wire does to the lines of a
  message, the server side takes back, except that all line
  endings are those of the wire then. No line of a message is
  taken for the one that ends it.

  Key definitions include:
    * `Bytes.withCrlf`
    * `Bytes.toWire`
    * `Bytes.IsWire`
    * `Smtp.Receiver.pushAll`

  Main statements:
    * `Bytes.toWire_eq_flatten`
    * `Smtp.pushAll_dotStuff`
-/

namespace MailFilter

------------------------------------------------------------
-- Line Endings Of The Wire
------------------------------------------------------------

namespace Bytes

/- Every line feed, with or without a return, as both. -/
def withCrlf : Bytes → Bytes
  | [] => []
  | cr :: lf :: rest => cr :: lf :: withCrlf rest
  | lf :: rest => cr :: lf :: withCrlf rest
  | b :: rest => b :: withCrlf rest

/-
  The bytes with the line endings of the wire. What is left
  after the last line feed is made a line, if there is
  anything.
-/
def toWire
    (data : Bytes) : Bytes :=
  data.withCrlf ++
    if data = [] ∨ data.EndsInLf then [] else crlf

/-
  All line feeds have a return before them, and the last line
  is ended.
-/
structure IsWire
    (data : Bytes) : Prop where
  head : data.head? ≠ some lf
  returned : data.IsChain fun a b => b = lf → a = cr
  closed : data = [] ∨ endsInCrlf data = true

/- A line as it is on the wire. -/
def wireLine
    (line : Bytes) : Bytes :=
  chomp line ++ crlf

theorem withCrlf_cons
    {b : UInt8}
    (hLf : b ≠ lf)
    {rest : Bytes}
    (hCr : b = cr → rest.head? ≠ some lf) :
    withCrlf (b :: rest) = b :: withCrlf rest := by
  rw [withCrlf]
  · intro other hEq hRest
    exact hCr hEq (by rw [hRest]; rfl)
  · exact hLf

theorem withCrlf_of_lf_not_mem
    {data : Bytes}
    (hNone : lf ∉ data) :
    withCrlf data = data := by
  induction data with
  | nil => rfl
  | cons b rest ih =>
      rw [List.mem_cons, not_or] at hNone
      rw [withCrlf_cons (Ne.symm hNone.1), ih hNone.2]
      intro _ hHead
      exact hNone.2 (List.mem_of_mem_head? hHead)

/- The ending of one line does not depend on the others. -/
theorem withCrlf_append
    {front : Bytes}
    (hFront : lf ∉ front)
    (rest : Bytes) :
    withCrlf (front ++ lf :: rest) =
      dropCr front ++ crlf ++ withCrlf rest := by
  induction front with
  | nil => rfl
  | cons b front ih =>
      rw [List.mem_cons, not_or] at hFront
      rcases hFront with ⟨hLf, hLater⟩
      by_cases hAlone : b = cr ∧ front = []
      · rcases hAlone with ⟨rfl, rfl⟩
        rfl
      · have hHead :
            b = cr → (front ++ lf :: rest).head? ≠ some lf := by
          intro hCr
          cases front with
          | nil => exact absurd ⟨hCr, rfl⟩ hAlone
          | cons c front =>
              simp only [List.cons_append, List.head?_cons, ne_eq,
                Option.some.injEq]
              rintro rfl
              exact hLater List.mem_cons_self
        have hDrop : dropCr (b :: front) = b :: dropCr front := by
          cases front with
          | nil =>
              have hNot : b ≠ cr := fun hCr => hAlone ⟨hCr, rfl⟩
              simp [dropCr, hNot]
          | cons c front =>
              simp only [dropCr, List.getLast?_cons_cons,
                List.dropLast_cons_cons]
              split <;> rfl
        rw [List.cons_append, withCrlf_cons (Ne.symm hLf) hHead,
          ih hLater, hDrop]
        rfl

/- A line without its ending has no line feed. -/
theorem lf_not_mem_chomp
    {line : Bytes}
    (hLine : line.IsLine ∨ lf ∉ line) :
    lf ∉ chomp line := by
  rcases hLine with ⟨front, rfl, hFront⟩ | hNone
  · have hChomp : chomp (front ++ [lf]) = dropCr front := by
      simp [chomp]
    rw [hChomp]
    intro hMem
    exact hFront (Message.mem_of_mem_dropCr hMem)
  · have hChomp : chomp line = line := by
      unfold chomp
      rw [if_neg]
      simp only [beq_iff_eq]
      intro hLast
      exact hNone (List.mem_of_getLast? hLast)
    rwa [hChomp]

/- The bytes of the wire are those of its lines. -/
theorem toWire_eq_flatten
    (data : Bytes) :
    data.toWire = ((lines data).map wireLine).flatten := by
  induction data using lineInduction with
  | tail data hNone =>
      by_cases hSome : data = []
      · subst hSome
        rfl
      · have hOpen : ¬ EndsInLf data := by
          intro hLast
          exact hNone (List.mem_of_getLast? hLast)
        have hChomp : chomp data = data := by
          unfold chomp
          exact if_neg (by simpa [EndsInLf] using hOpen)
        rw [toWire, withCrlf_of_lf_not_mem hNone,
          if_neg (by simp [hSome, hOpen]),
          lines_of_lf_not_mem hNone hSome]
        simp [wireLine, hChomp]
  | line line rest hLine ih =>
      have hClosed :
          (line ++ rest = [] ∨ EndsInLf (line ++ rest)) ↔
            (rest = [] ∨ EndsInLf rest) := by
        rcases hLine with ⟨front, rfl, _⟩
        cases rest with
        | nil => simp [EndsInLf]
        | cons b rest => simp [EndsInLf]
      rw [lines_cons hLine, List.map_cons, List.flatten_cons,
        ← ih, toWire, toWire]
      simp only [hClosed]
      rcases hLine with ⟨front, rfl, hFront⟩
      have hLine : wireLine (front ++ [lf]) = dropCr front ++ crlf := by
        simp [wireLine, chomp]
      rw [List.append_assoc, List.singleton_append,
        withCrlf_append hFront, hLine, List.append_assoc _ _ (ite _ _ _)]

/- Bytes that are as on the wire are left alone. -/
theorem withCrlf_eq_self
    {data : Bytes}
    (hHead : data.head? ≠ some lf)
    (hReturned : data.IsChain fun a b => b = lf → a = cr) :
    withCrlf data = data := by
  fun_induction withCrlf data with
  | case1 => rfl
  | case2 rest ih =>
      have hLater := hReturned.of_cons
      have hNext : rest.head? ≠ some lf := by
        intro hNext
        cases rest with
        | nil => cases hNext
        | cons b rest =>
            cases hNext
            have hFeed := (List.isChain_cons_cons.mp hLater).1
            exact absurd (hFeed rfl) (by decide)
      rw [ih hNext hLater.of_cons]
      rfl
  | case3 rest => exact absurd rfl hHead
  | case4 b rest hAlone hLf ih =>
      have hNext : rest.head? ≠ some lf := by
        intro hNext
        cases rest with
        | nil => cases hNext
        | cons c rest =>
            cases hNext
            have hFeed := (List.isChain_cons_cons.mp hReturned).1
            exact hAlone rest (hFeed rfl) rfl
      rw [ih hNext hReturned.of_cons]

theorem toWire_eq_self
    {data : Bytes}
    (hWire : data.IsWire) :
    data.toWire = data := by
  have hClosed : data = [] ∨ data.EndsInLf := by
    rcases hWire.closed with hEmpty | hLast
    · exact Or.inl hEmpty
    · right
      rcases List.isSuffixOf_iff_suffix.mp hLast with
        ⟨front, rfl⟩
      simp [EndsInLf]
  rw [toWire, if_pos hClosed, List.append_nil,
    withCrlf_eq_self hWire.head hWire.returned]

end Bytes

------------------------------------------------------------
-- Sent Lines
------------------------------------------------------------

namespace Relay

open Bytes

/- What is sent for a line ends no message. -/
theorem isLine_stuffLine
    {line : Bytes}
    (hLine : line.IsLine ∨ lf ∉ line) :
    (stuffLine line).IsLine ∧
      ¬ Smtp.IsTerminator (stuffLine line) := by
  have hNone := lf_not_mem_chomp hLine
  unfold stuffLine
  dsimp only
  generalize chomp line = content at hNone
  split
  · refine ⟨⟨dot :: content ++ [cr], by simp, ?_⟩, ?_⟩
    · simp +decide [hNone]
    · rename_i hDot
      cases content with
      | nil => cases hDot
      | cons b content =>
          rintro (hSame | hSame)
          · have hLength := congrArg List.length hSame
            simp at hLength
          · have hLength := congrArg List.length hSame
            simp at hLength
  · refine ⟨⟨content ++ [cr], by simp, ?_⟩, ?_⟩
    · simp +decide [hNone]
    · rename_i hDot
      cases content with
      | nil => exact by decide
      | cons b content =>
          have hFirst : b ≠ dot := by simpa using hDot
          rintro (hSame | hSame)
          · exact hFirst (List.cons.inj hSame).1
          · exact hFirst (List.cons.inj hSame).1

/- Dropping the dot again gives the line of the wire. -/
theorem unstuff_stuffLine
    (line : Bytes) :
    Smtp.Receiver.unstuff (stuffLine line) = wireLine line := by
  unfold stuffLine wireLine
  dsimp only
  generalize chomp line = content
  split
  · rfl
  · rename_i hDot
    cases content with
    | nil => rfl
    | cons b content =>
        have hFirst : b ≠ dot := by simpa using hDot
        rw [List.cons_append, Smtp.Receiver.unstuff]
        intro rest hSame
        exact hFirst (List.cons.inj hSame).1

/- The lines that are sent are those of the message. -/
theorem lines_dotStuff
    (data : Bytes) :
    lines (dotStuff data ++ terminator) =
      (lines data).map stuffLine ++ [terminator] := by
  have hSent : ∀ line ∈ (lines data).map stuffLine, IsLine line := by
    intro line hLine
    rcases List.mem_map.mp hLine with ⟨other, hOther, rfl⟩
    exact (isLine_stuffLine (isLine_or_of_mem_lines hOther)).1
  rw [dotStuff, List.flatMap_def, lines_flatten_append hSent]
  rfl

end Relay

namespace Smtp

open Bytes

------------------------------------------------------------
-- Pushing All Lines
------------------------------------------------------------

namespace Receiver

/-
  Push lines one after the other. Tells of each whether it
  ended the message.
-/
def pushAll
    (receiver : Receiver) : List Bytes → List Bool × Receiver
  | [] => ([], receiver)
  | line :: rest =>
      let (ended, next) := receiver.push line
      let (others, last) := next.pushAll rest
      (ended :: others, last)

/- The line that ends a message is the only one that does. -/
theorem pushAll_append_terminator
    (receiver : Receiver)
    {lines : List Bytes}
    (hLines : ∀ line ∈ lines, ¬ IsTerminator line)
    {last : Bytes}
    (hLast : IsTerminator last) :
    receiver.pushAll (lines ++ [last]) =
      (List.replicate lines.length false ++ [true],
          lines.foldl takeLine receiver) := by
  induction lines generalizing receiver with
  | nil => simp [pushAll, push, hLast]
  | cons line lines ih =>
      rcases List.forall_mem_cons.mp hLines with
        ⟨hFirst, hLater⟩
      simp only [List.cons_append, pushAll, push, if_neg hFirst]
      rw [ih _ hLater]
      rfl

theorem path_takeTexts
    (receiver : Receiver)
    (texts : List Bytes) :
    (texts.foldl takeText receiver).path = receiver.path := by
  induction texts generalizing receiver with
  | nil => rfl
  | cons text texts ih =>
      have hPath : (receiver.takeText text).path = receiver.path := by
        simp only [takeText, track]
        repeat' split
        all_goals rfl
      rw [List.foldl_cons, ih, hPath]

/- The size of a message is that of its lines. -/
theorem size_takeTexts
    (receiver : Receiver)
    (texts : List Bytes) :
    (texts.foldl takeText receiver).size =
      receiver.size + texts.flatten.length := by
  induction texts generalizing receiver with
  | nil => rfl
  | cons text texts ih =>
      have hSize :
          (receiver.takeText text).size =
            receiver.size + text.length := by
        simp only [takeText, track]
        repeat' split
        all_goals rfl
      rw [List.foldl_cons, ih, hSize, List.flatten_cons,
        List.length_append, Nat.add_assoc]

end Receiver

/- What a receiver has when all of a message was pushed. -/
theorem pushAll_stuffed
    (receiver : Receiver)
    (data : Bytes) :
    receiver.pushAll
        (lines (Relay.dotStuff data ++ Relay.terminator)) =
      (List.replicate (lines data).length false ++ [true],
          ((lines data).map wireLine).foldl Receiver.takeText
            receiver) := by
  have hLines :
      ∀ line ∈ (lines data).map Relay.stuffLine,
        ¬ IsTerminator line := by
    intro line hLine
    rcases List.mem_map.mp hLine with ⟨other, hOther, rfl⟩
    exact (Relay.isLine_stuffLine
      (isLine_or_of_mem_lines hOther)).2
  have hTexts :
      (lines data).map (Receiver.unstuff ∘ Relay.stuffLine) =
        (lines data).map wireLine :=
    List.map_congr_left fun line _ =>
      Relay.unstuff_stuffLine line
  have hLast : IsTerminator Relay.terminator := Or.inl rfl
  rw [Relay.lines_dotStuff,
    Receiver.pushAll_append_terminator receiver hLines hLast,
    Receiver.foldl_takeLine, List.map_map, hTexts,
    List.length_map]

/-
  The lines of a message that is sent are all taken but the
  last one, which ends it. What is received is the message
  with the line endings of the wire, and that is the message
  itself if it had those. If nothing fails it is spooled.
-/
theorem pushAll_dotStuff
    (path : Path)
    (data : Bytes) :
    ∃ receiver,
      Receiver.pushAll { path := path }
          (lines (Relay.dotStuff data ++ Relay.terminator)) =
        (List.replicate (lines data).length false ++ [true],
            receiver) ∧
      receiver.content = data.toWire ∧
      receiver.size = data.toWire.length ∧
      (data.IsWire →
          receiver.content = data ∧
            receiver.size = data.length) ∧
      ∀ (w : World) (queueDir : String) (file : File),
          w.files.IsReady queueDir →
          w.files.file? path = some file →
          ∃ received files,
            receiver.finish 0 w =
                (.ok (.received received),
                    { w with files := files }) ∧
              received.path = path ∧
              received.size = data.toWire.length ∧
              files.content? path = some data.toWire := by
  refine ⟨_, pushAll_stuffed _ data, ?_⟩
  generalize hReceiver :
    ((lines data).map wireLine).foldl Receiver.takeText
      { path := path } = receiver
  have hContent : receiver.content = data.toWire := by
    rw [Receiver.content, ← hReceiver, Receiver.lines_takeTexts,
      toWire_eq_flatten]
    simp
  have hSize : receiver.size = data.toWire.length := by
    rw [← hReceiver, Receiver.size_takeTexts, toWire_eq_flatten,
      Nat.zero_add]
  refine ⟨hContent, hSize, ?_, ?_⟩
  · intro hWire
    rw [hContent, hSize, toWire_eq_self hWire]
    exact ⟨rfl, rfl⟩
  · intro w queueDir file hReady hFile
    have hPath : receiver.path = path := by
      rw [← hReceiver, Receiver.path_takeTexts]
    rw [← hPath] at hFile
    rcases Receiver.exists_finish hReady hFile with
      ⟨files, hFinish, _, hSpooled⟩
    rw [hPath, hContent] at hSpooled
    exact ⟨receiver.received, files, hFinish, hPath, hSize,
      hSpooled⟩

/- A line of one dot and a line that starts with two. -/
theorem pushAll_dotStuff_dots :
    ∃ receiver received files,
      Receiver.pushAll { path := .spooled "/q" 0 }
          (lines (Relay.dotStuff (Utf8.encode ".\r\n..a\r\n") ++
            Relay.terminator)) =
        ([false, false, true], receiver) ∧
      receiver.content = Utf8.encode ".\r\n..a\r\n" ∧
      receiver.size = 8 ∧
      receiver.finish 0 (.holding []) =
        (.ok (.received received),
            { World.holding [] with files := files }) ∧
      files.content? (.spooled "/q" 0) =
        some (Utf8.encode ".\r\n..a\r\n") := by
  rcases pushAll_dotStuff (.spooled "/q" 0)
      (Utf8.encode ".\r\n..a\r\n") with
    ⟨receiver, hPush, _, _, hSame, hSpool⟩
  have hWire : (Utf8.encode ".\r\n..a\r\n").IsWire :=
    ⟨by decide, by decide, by decide⟩
  rcases hSpool (.holding []) "/q" _ (World.isReady_holding []) rfl with
    ⟨received, files, hFinish, _, _, hContent⟩
  rcases hSame hWire with ⟨hSelf, hSize⟩
  exact ⟨receiver, received, files, hPush, hSelf, hSize, hFinish,
    hContent⟩

end Smtp

end MailFilter
