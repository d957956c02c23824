import MailFilter.Proofs.Message.Field
import MailFilter.Relay.Response

/-
  The replies at the start of what a relay has sent.

  A reply that is complete does not change when more bytes
  arrive behind it. So the replies in what was received so far
  are those that were read and used, and those in what is left
  in the buffer.

  Key definitions include:
    * `Relay.Response.followedBy`
    * `Relay.replies`

  Main statements:
    * `Relay.Response.parse_append_of_ne`
    * `Relay.Response.exists_used_of_parseFrom`
    * `Relay.Response.parse_append`
    * `Relay.replies_of_parse`
-/

namespace MailFilter.Relay

open Bytes

/- The first line is the same when more bytes arrive. -/
theorem splitLine_append_of_mem
    {buffer : Bytes}
    (hMem : lf ∈ buffer)
    (more : Bytes) :
    splitLine (buffer ++ more) =
      ((splitLine buffer).1, (splitLine buffer).2 ++ more) := by
  rcases List.eq_append_cons_of_mem hMem with
    ⟨line, rest, rfl, hNone⟩
  rw [List.append_assoc, List.cons_append,
    splitLine_append_lf hNone,
    splitLine_append_lf hNone]

namespace Response

/- What is found in a buffer, with more bytes behind it. -/
def followedBy
    (more : Bytes) :
    Except DeliveryError (Option (Response × Bytes)) →
      Except DeliveryError (Option (Response × Bytes)) :=
  Except.map (Option.map fun found => (found.1, found.2 ++ more))

/- The first line is read before what comes behind it. -/
theorem parseFrom_append_of_mem
    {buffer : Bytes}
    (hMem : lf ∈ buffer)
    (code : Option Nat)
    (texts : List String)
    (more : Bytes) :
    parseFrom code texts (buffer ++ more) =
      match readLine? (lineText (splitLine buffer).1) with
      | none =>
          .error (.malformedReply
            (lineText (splitLine buffer).1))
      | some read =>
          if code.any (· != read.code) then
            .error (.malformedReply
              (lineText (splitLine buffer).1))
          else if read.last then
            .ok (some
              (⟨read.code, (read.text :: texts).reverse⟩,
                (splitLine buffer).2 ++ more))
          else
            parseFrom (some read.code) (read.text :: texts)
              ((splitLine buffer).2 ++ more) := by
  rw [parseFrom, if_pos (by simp [hMem])]
  cases hLine : readLine? (lineText (splitLine buffer).1) with
  | none => simp only [splitLine_append_of_mem hMem, hLine]
  | some read => simp only [splitLine_append_of_mem hMem, hLine]

/- A reply that was read, or refused, stays what it is. -/
theorem parseFrom_append_of_ne
    {code : Option Nat}
    {texts : List String}
    {buffer : Bytes}
    (hParse : parseFrom code texts buffer ≠ .ok none)
    (more : Bytes) :
    parseFrom code texts (buffer ++ more) =
      followedBy more (parseFrom code texts buffer) := by
  fun_induction parseFrom code texts buffer with
  | case1 code texts buffer hFull line hLine =>
      rw [parseFrom_append_of_mem (by simpa using hFull), hLine]
      rfl
  | case2 code texts buffer hFull line read hLine hCode =>
      rw [parseFrom_append_of_mem (by simpa using hFull), hLine]
      exact if_pos hCode
  | case3 code texts buffer hFull line left read hLine hCode
      found hLast =>
      rw [parseFrom_append_of_mem (by simpa using hFull), hLine]
      exact (if_neg hCode).trans (if_pos hLast)
  | case4 code texts buffer hFull line left read hLine hCode
      found hLast ih =>
      rw [parseFrom_append_of_mem (by simpa using hFull), hLine]
      exact ((if_neg hCode).trans (if_neg hLast)).trans
        (ih hParse)
  | case5 => exact absurd rfl hParse

/- A complete reply stays what it is. -/
theorem parseFrom_append
    {code : Option Nat}
    {texts : List String}
    {buffer rest : Bytes}
    {response : Response}
    (hParse :
      parseFrom code texts buffer = .ok (some (response, rest)))
    (more : Bytes) :
    parseFrom code texts (buffer ++ more) =
      .ok (some (response, rest ++ more)) := by
  rw [parseFrom_append_of_ne (by rw [hParse]; simp), hParse]
  rfl

theorem parse_append
    {buffer rest : Bytes}
    {response : Response}
    (hParse : parse buffer = .ok (some (response, rest)))
    (more : Bytes) :
    parse (buffer ++ more) =
      .ok (some (response, rest ++ more)) :=
  parseFrom_append hParse more

/- A verdict on the first reply stays what it is. -/
theorem parse_append_of_ne
    {buffer : Bytes}
    (hParse : parse buffer ≠ .ok none)
    (more : Bytes) :
    parse (buffer ++ more) = followedBy more (parse buffer) :=
  parseFrom_append_of_ne hParse more

/- A reply takes up whole lines. -/
theorem exists_used_of_parseFrom
    {code : Option Nat}
    {texts : List String}
    {buffer rest : Bytes}
    {response : Response}
    (hParse :
      parseFrom code texts buffer =
        .ok (some (response, rest))) :
    ∃ used : Bytes, buffer = used ++ rest ∧ used.EndsInLf := by
  have hLine :
      ∀ buffer : Bytes, lf ∈ buffer →
        (splitLine buffer).1.EndsInLf := by
    intro buffer hMem
    rcases List.eq_append_cons_of_mem hMem with
      ⟨line, rest, rfl, hNone⟩
    rw [splitLine_append_lf hNone]
    exact List.getLast?_concat ..
  fun_induction parseFrom code texts buffer with
  | case1 => cases hParse
  | case2 => cases hParse
  | case3 code texts buffer hFull line left read _ _ found _ =>
      simp only [Except.ok.injEq, Option.some.injEq,
        Prod.mk.injEq] at hParse
      rw [← hParse.2]
      exact ⟨_, (splitLine_append buffer).symm,
        hLine buffer (by simpa using hFull)⟩
  | case4 code texts buffer hFull line left read _ _ found _
      ih =>
      rcases ih hParse with ⟨used, hUsed, hEnds⟩
      refine ⟨(splitLine buffer).1 ++ used, ?_, ?_⟩
      · rw [List.append_assoc, ← hUsed]
        exact (splitLine_append buffer).symm
      · rw [EndsInLf, List.getLast?_append, hEnds]
        rfl
  | case5 => cases hParse

/- Reading goes on behind a complete reply. -/
theorem parseAllFrom_of_parse
    {buffer rest : Bytes}
    {response : Response}
    (hParse : parse buffer = .ok (some (response, rest)))
    (found : List (Response × Nat)) :
    parseAllFrom found buffer =
      parseAllFrom
        ((response, buffer.length - rest.length) :: found)
        rest := by
  rw [parseAllFrom]
  split
  · rename_i e hError
    rw [hParse] at hError
    cases hError
  · rename_i hNone
    rw [hParse] at hNone
    cases hNone
  · rename_i other left hOther
    rw [hParse] at hOther
    cases hOther
    rfl

/- It stops where there is none. -/
theorem parseAllFrom_of_not_parse
    {buffer : Bytes}
    (hParse :
      ∀ found, parse buffer ≠ .ok (some found))
    (found : List (Response × Nat)) :
    (parseAllFrom found buffer).1 = found.reverse := by
  rw [parseAllFrom]
  split
  · rfl
  · rfl
  · rename_i response rest hFound
    exact absurd hFound (hParse _)

/- Replies that were found before come first. -/
theorem parseAllFrom_eq
    (found : List (Response × Nat))
    (buffer : Bytes) :
    (parseAllFrom found buffer).1 =
      found.reverse ++ (parseAll buffer).1 := by
  unfold parseAll
  by_cases hParse : ∃ first, parse buffer = .ok (some first)
  · rcases hParse with ⟨⟨response, rest⟩, hParse⟩
    have hShorter : rest.length < buffer.length :=
      length_parseFrom_lt hParse
    rw [parseAllFrom_of_parse hParse,
      parseAllFrom_of_parse hParse, parseAllFrom_eq _ rest,
      parseAllFrom_eq [_] rest]
    simp
  · have hNone :
        ∀ first, parse buffer ≠ .ok (some first) :=
      fun first hFirst => hParse ⟨first, hFirst⟩
    rw [parseAllFrom_of_not_parse hNone,
      parseAllFrom_of_not_parse hNone]
    simp
termination_by buffer.length

end Response

/- The complete replies at the start of some bytes. -/
def replies
    (bytes : Bytes) : List Response :=
  (Response.parseAll bytes).1.map Prod.fst

/- A reply is followed by those that come behind it. -/
theorem replies_of_parse
    {buffer rest : Bytes}
    {response : Response}
    (hParse :
      Response.parse buffer = .ok (some (response, rest)))
    (more : Bytes) :
    replies (buffer ++ more) =
      response :: replies (rest ++ more) := by
  have hMore := Response.parse_append hParse more
  unfold replies
  rw [Response.parseAll, Response.parseAllFrom_of_parse hMore,
    Response.parseAllFrom_eq]
  rfl

/- There is none unless the first one is complete. -/
theorem replies_eq_nil
    {buffer : Bytes}
    (hParse :
      ∀ first, Response.parse buffer ≠ .ok (some first)) :
    replies buffer = [] := by
  unfold replies
  rw [Response.parseAll,
    Response.parseAllFrom_of_not_parse hParse]
  rfl

end MailFilter.Relay
