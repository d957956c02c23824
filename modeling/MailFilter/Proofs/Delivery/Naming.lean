import MailFilter.Delivery.Nexthop
import MailFilter.Proofs.Smtp.Attributes
import MailFilter.Proofs.Text.Decimal

/-
  How a value names the relay that messages go to.

  A relay is named by its host, and by its port after a colon.
  A host that has colons itself has to stand in brackets if a
  port follows. What follows a colon and is not the number of
  a port belongs to the host.

  A port is written in decimal digits. As with other numbers
  there may be zeros in front of them, and a plus sign.

  Key definitions include:
    * `Nexthop.IsHost`
    * `Nexthop.IsLiteral`
    * `Nexthop.IsPort`
    * `Nexthop.Names`
    * `Nexthop.naming`

  Main statements:
    * `Nexthop.hostPort_append`
    * `Nexthop.hostPort_of_colons`
    * `Nexthop.parse_of_names`
    * `Nexthop.find?_eq_none_iff`
    * `Nexthop.reads_names`
-/

namespace MailFilter

------------------------------------------------------------
-- Blanks Around A Text
------------------------------------------------------------

namespace Text

/- Blanks before and after a text are trimmed with its own. -/
theorem trimChars_gaps
    {front back : List Char}
    (hFront : IsGap front)
    (hBack : IsGap back)
    (text : List Char) :
    trimChars (front ++ text ++ back) = trimChars text := by
  have hStart :
      ∀ rest, trimChars (front ++ rest) = trimChars rest := by
    intro rest
    rw [trimChars, trimChars, trimStart,
      List.dropWhile_append_of_pos hFront, trimStart]
  rw [List.append_assoc, hStart]
  induction back using List.reverseRecOn with
  | nil => rw [List.append_nil]
  | append_singleton back c ih =>
      rw [← List.append_assoc,
        trimChars_concat_blank (hBack c (by simp))]
      exact ih fun d hMem => hBack d (by simp [hMem])

/- Nothing is left of blanks, and something of all else. -/
theorem trimChars_eq_nil_iff
    {text : List Char} :
    trimChars text = [] ↔ IsGap text := by
  constructor
  · intro hNone
    have hBlank := List.rdropWhile_eq_nil_iff.mp hNone
    have hStart : trimStart text = [] := by
      cases hRest : trimStart text with
      | nil => rfl
      | cons c rest =>
          have hNot := List.head?_dropWhile_not isBlank text
          have hFirst : text.dropWhile isBlank = c :: rest := hRest
          rw [hFirst] at hNot
          have hIs := hBlank c (by rw [hRest]; exact
            List.mem_cons_self)
          exact absurd hIs (by simpa using hNot)
    exact List.dropWhile_eq_nil_iff.mp hStart
  · intro hGap
    have hTrim := trimChars_gaps hGap (List.forall_mem_nil _) []
    rwa [List.append_nil, List.append_nil] at hTrim

end Text

namespace Nexthop

open Text

------------------------------------------------------------
-- The Grammar Of Values
------------------------------------------------------------

/- A host without colons and brackets. -/
structure IsHost
    (host : String) : Prop where
  colon : ':' ∉ host.toList
  opening : '[' ∉ host.toList
  closing : ']' ∉ host.toList

/- A host with two or more colons and without brackets. -/
structure IsLiteral
    (host : String) : Prop where
  colons : 2 ≤ host.toList.count ':'
  opening : '[' ∉ host.toList
  closing : ']' ∉ host.toList

/- The text is the number of a port. -/
structure IsPort
    (text : String)
    (port : Nat) : Prop where
  fits : port < 65536
  spelled :
    ∃ signed zeros,
      text.toList = Decimal.spelling signed zeros port

/- The value names the host and the port. -/
inductive Names : String → String → Nat → Prop where
  | host
      {host : String}
      (isHost : IsHost host) :
      Names host host defaultPort
  | hostAndPort
      {host text : String}
      {port : Nat}
      (isHost : IsHost host)
      (isPort : IsPort text port) :
      Names (host ++ ":" ++ text) host port
  /- What follows the colon is not a port. -/
  | hostAndOther
      {host text : String}
      (isHost : IsHost host)
      (colon : ':' ∉ text.toList)
      (closing : ']' ∉ text.toList)
      (isOther : ∀ port, ¬ IsPort text port) :
      Names (host ++ ":" ++ text) (host ++ ":" ++ text)
        defaultPort
  | literal
      {host : String}
      (isLiteral : IsLiteral host) :
      Names host host defaultPort
  | bracketed
      {host : String}
      (isLiteral : IsLiteral host) :
      Names ("[" ++ host ++ "]") host defaultPort
  | bracketedAndPort
      {host text : String}
      {port : Nat}
      (isLiteral : IsLiteral host)
      (isPort : IsPort text port) :
      Names ("[" ++ host ++ "]:" ++ text) host port

/- A port can be written as numbers are. -/
theorem isPort_toString
    {port : Nat}
    (hFits : port < 65536) :
    IsPort (toString port) port :=
  ⟨hFits, false, 0, by simp [Decimal.spelling]⟩

/- The grammar of ports is the one that is read. -/
theorem isPort_iff
    {text : String}
    {port : Nat} :
    IsPort text port ↔
      Decimal.readWord? 16 text.toList = some port := by
  rw [Decimal.readWord?_eq_some_iff, Decimal.read?_eq_some_iff]
  exact ⟨fun hPort => ⟨hPort.fits, hPort.spelled⟩,
    fun hRead => ⟨hRead.1, hRead.2⟩⟩

/- A port is written without colons. -/
theorem IsPort.colon
    {text : String}
    {port : Nat}
    (hPort : IsPort text port) :
    ':' ∉ text.toList := by
  intro hMem
  have hRead := Decimal.read?_eq_some_iff.mpr hPort.spelled
  rcases Decimal.isDigit_or_eq_of_read? hRead hMem with
    hDigit | hSign
  · exact absurd hDigit (by decide)
  · exact absurd hSign (by decide)

------------------------------------------------------------
-- The Last Colon
------------------------------------------------------------

theorem splitPort?_of_not_mem
    {value : List Char}
    (hNone : ':' ∉ value) :
    splitPort? value = none := by
  have hDrop : value.reverse.dropWhile (· != ':') = [] := by
    rw [List.dropWhile_eq_nil_iff]
    intro c hMem
    rw [bne_iff_ne]
    rintro rfl
    exact hNone (List.mem_reverse.mp hMem)
  rw [splitPort?, hDrop]

theorem splitPort?_append
    {port : List Char}
    (hNone : ':' ∉ port)
    (host : List Char) :
    splitPort? (host ++ ':' :: port) = some (host, port) := by
  have hPort :
      ∀ c ∈ port.reverse, (c != ':') = true := by
    intro c hMem
    rw [bne_iff_ne]
    rintro rfl
    exact hNone (List.mem_reverse.mp hMem)
  have hReverse :
      (host ++ ':' :: port).reverse =
        port.reverse ++ ':' :: host.reverse := by
    simp
  rw [splitPort?, hReverse, List.dropWhile_append_of_pos hPort,
    List.takeWhile_append_of_pos hPort]
  simp

/- A text with a colon has a last one. -/
theorem exists_last_colon
    {value : List Char}
    (hColon : ':' ∈ value) :
    ∃ host port, value = host ++ ':' :: port ∧ ':' ∉ port := by
  rcases List.eq_append_cons_of_mem
      (List.mem_reverse.mpr hColon) with
    ⟨back, front, hReverse, hBack⟩
  refine ⟨front.reverse, back.reverse, ?_, ?_⟩
  · rw [← List.reverse_reverse value, hReverse]
    simp
  · rwa [List.mem_reverse]

------------------------------------------------------------
-- Host And Port
------------------------------------------------------------

/- A port is looked for if it is clear where the host ends. -/
theorem hostPort_append
    {host port : List Char}
    (hPort : ':' ∉ port)
    (hHost : ':' ∉ host ∨ host.getLast? = some ']') :
    hostPort (host ++ ':' :: port) =
      match Decimal.readWord? 16 port with
      | some number => (host, number)
      | none => (host ++ ':' :: port, defaultPort) := by
  have hEnds :
      (!host.contains ':' || host.getLast? == some ']') = true := by
    simpa using hHost
  rw [hostPort, splitPort?_append hPort]
  exact if_pos hEnds

/- A value with other colons has no port. -/
theorem hostPort_of_colons
    {host port : List Char}
    (hPort : ':' ∉ port)
    (hColon : ':' ∈ host)
    (hLast : host.getLast? ≠ some ']') :
    hostPort (host ++ ':' :: port) =
      (host ++ ':' :: port, defaultPort) := by
  have hOpen :
      ¬ (!host.contains ':' || host.getLast? == some ']') = true := by
    simpa using ⟨hColon, hLast⟩
  rw [hostPort, splitPort?_append hPort]
  exact if_neg hOpen

theorem dropWhile_eq_self
    {c : Char}
    {text : List Char}
    (hFirst : text.head? ≠ some c) :
    text.dropWhile (· == c) = text := by
  cases text with
  | nil => rfl
  | cons d rest =>
      rw [List.dropWhile_cons_of_neg]
      simpa using hFirst

/- However many brackets there are around a host, they go. -/
theorem dropBrackets_append
    {host : List Char}
    (hFirst : host.head? ≠ some '[')
    (hLast : host.getLast? ≠ some ']')
    (opening closing : Nat) :
    dropBrackets
        (List.replicate opening '[' ++
          (host ++ List.replicate closing ']')) =
      host := by
  have hOpening :
      ∀ c ∈ List.replicate opening '[', (c == '[') = true := by
    intro c hMem
    rw [List.eq_of_mem_replicate hMem]
    rfl
  have hClosing :
      ∀ c ∈ List.replicate closing ']', (c == ']') = true := by
    intro c hMem
    rw [List.eq_of_mem_replicate hMem]
    rfl
  have hStart :
      (host ++ List.replicate closing ']').head? ≠ some '[' := by
    cases host with
    | nil =>
        intro hHead
        have hMem := List.mem_of_mem_head? hHead
        exact absurd (List.eq_of_mem_replicate hMem) (by decide)
    | cons c rest => exact hFirst
  rw [List.getLast?_eq_head?_reverse] at hLast
  rw [dropBrackets, List.dropWhile_append_of_pos hOpening,
    dropWhile_eq_self hStart, List.reverse_append,
    List.reverse_replicate,
    List.dropWhile_append_of_pos hClosing,
    dropWhile_eq_self hLast, List.reverse_reverse]

------------------------------------------------------------
-- Reading Values
------------------------------------------------------------

/- What a value that is no path is read as. -/
theorem parse_of_hostPort
    {files : Files}
    {value : String}
    (hPath : files.hasOther (.named value) = false)
    {named : List Char}
    {port : Nat}
    (hNamed : hostPort value.toList = (named, port))
    {host : String}
    (hHost : dropBrackets named = host.toList) :
    parse files value = .relay host port := by
  rw [parse, hPath, hNamed]
  dsimp only
  rw [hHost, String.ofList_toList]
  rfl

theorem toList_hostAndPort
    (host text : String) :
    (host ++ ":" ++ text).toList =
      host.toList ++ ':' :: text.toList := by
  simp

theorem IsHost.dropBrackets_eq
    {host : String}
    (hHost : IsHost host) :
    dropBrackets host.toList = host.toList := by
  have hDrop := dropBrackets_append
    (fun hFirst => hHost.opening (List.mem_of_mem_head? hFirst))
    (fun hLast => hHost.closing (List.mem_of_mem_getLast? hLast))
    0 0
  simpa using hDrop

/- What follows a host after a colon is kept as well. -/
theorem IsHost.dropBrackets_append
    {host text : String}
    (hHost : IsHost host)
    (hClosing : ']' ∉ text.toList) :
    dropBrackets (host ++ ":" ++ text).toList =
      (host ++ ":" ++ text).toList := by
  rw [toList_hostAndPort]
  have hFirst :
      (host.toList ++ ':' :: text.toList).head? ≠ some '[' := by
    intro hHead
    cases hChars : host.toList with
    | nil =>
        rw [hChars] at hHead
        cases hHead
    | cons c rest =>
        apply hHost.opening
        rw [hChars] at hHead ⊢
        exact List.mem_of_mem_head? hHead
  have hLast :
      (host.toList ++ ':' :: text.toList).getLast? ≠
        some ']' := by
    intro hEnd
    rw [List.getLast?_append_cons] at hEnd
    have hMem := List.mem_of_mem_getLast? hEnd
    exact hClosing (by simpa using hMem)
  have hDrop := Nexthop.dropBrackets_append hFirst hLast 0 0
  simpa using hDrop

namespace IsLiteral

variable {host : String}

theorem dropBrackets_append
    (hHost : IsLiteral host)
    (opening closing : Nat) :
    dropBrackets
        (List.replicate opening '[' ++
          (host.toList ++ List.replicate closing ']')) =
      host.toList :=
  Nexthop.dropBrackets_append
    (fun hFirst => hHost.opening (List.mem_of_mem_head? hFirst))
    (fun hLast => hHost.closing (List.mem_of_mem_getLast? hLast))
    opening closing

/- It has a colon before its last one. -/
theorem exists_colons
    (hHost : IsLiteral host) :
    ∃ front back,
      host.toList = front ++ ':' :: back ∧
        ':' ∈ front ∧
        ']' ∉ front ∧
        ':' ∉ back := by
  have hColon : ':' ∈ host.toList :=
    List.count_pos_iff.mp
      (Nat.lt_of_lt_of_le Nat.zero_lt_two hHost.colons)
  rcases exists_last_colon hColon with
    ⟨front, back, hWhole, hBack⟩
  refine ⟨front, back, hWhole, ?_, ?_, hBack⟩
  · have hCount := hHost.colons
    rw [hWhole, List.count_append, List.count_cons_self,
      List.count_eq_zero.mpr hBack] at hCount
    exact List.count_pos_iff.mp (by omega)
  · intro hMem
    apply hHost.closing
    rw [hWhole]
    exact List.mem_append_left _ hMem

end IsLiteral

/- One case for each form that a value can have. -/
theorem parse_of_names
    {files : Files}
    {value host : String}
    {port : Nat}
    (hNames : Names value host port)
    (hPath : files.hasOther (.named value) = false) :
    parse files value = .relay host port := by
  cases hNames with
  | host isHost =>
      refine parse_of_hostPort hPath ?_ isHost.dropBrackets_eq
      rw [hostPort, splitPort?_of_not_mem isHost.colon]
  | @hostAndPort _ text _ isHost isPort =>
      refine parse_of_hostPort hPath ?_ isHost.dropBrackets_eq
      rw [toList_hostAndPort,
        hostPort_append isPort.colon (Or.inl isHost.colon),
        isPort_iff.mp isPort]
  | @hostAndOther host text isHost colon closing isOther =>
      have hNone : Decimal.readWord? 16 text.toList = none := by
        cases hRead : Decimal.readWord? 16 text.toList with
        | none => rfl
        | some port =>
            exact absurd (isPort_iff.mpr hRead) (isOther port)
      refine parse_of_hostPort hPath ?_
        (isHost.dropBrackets_append closing)
      rw [toList_hostAndPort,
        hostPort_append colon (Or.inl isHost.colon), hNone]
  | literal isLiteral =>
      rcases isLiteral.exists_colons with
        ⟨front, back, hWhole, hColon, hClosing, hBack⟩
      have hNamed :
          hostPort value.toList = (value.toList, defaultPort) := by
        rw [hWhole]
        exact hostPort_of_colons hBack hColon
          fun hLast => hClosing (List.mem_of_mem_getLast? hLast)
      refine parse_of_hostPort hPath hNamed ?_
      simpa using isLiteral.dropBrackets_append 0 0
  | bracketed isLiteral =>
      rcases isLiteral.exists_colons with
        ⟨front, back, hWhole, hColon, hClosing, hBack⟩
      have hText :
          ("[" ++ host ++ "]").toList =
            '[' :: (host.toList ++ [']']) := by
        simp
      have hSplit :
          '[' :: (host.toList ++ [']']) =
            ('[' :: front) ++ ':' :: (back ++ [']']) := by
        rw [hWhole]
        simp
      refine parse_of_hostPort hPath ?_
        (isLiteral.dropBrackets_append 1 1)
      change _ = ('[' :: (host.toList ++ [']']), defaultPort)
      rw [hText, hSplit]
      apply hostPort_of_colons
      · simpa using hBack
      · exact List.mem_cons_of_mem _ hColon
      · intro hLast
        have hMem := List.mem_of_mem_getLast? hLast
        exact hClosing (by simpa using hMem)
  | @bracketedAndPort _ text _ isLiteral isPort =>
      have hText :
          ("[" ++ host ++ "]:" ++ text).toList =
            '[' :: (host.toList ++ [']']) ++ ':' :: text.toList := by
        simp
      refine parse_of_hostPort hPath ?_
        (isLiteral.dropBrackets_append 1 1)
      have hLast :
          ('[' :: (host.toList ++ [']'])).getLast? = some ']' := by
        rw [← List.cons_append, List.getLast?_concat]
      rw [hText]
      exact (hostPort_append isPort.colon (Or.inr hLast)).trans
        (by rw [isPort_iff.mp isPort]; rfl)

------------------------------------------------------------
-- The Value Of The Settings
------------------------------------------------------------

/- The settings with another value. -/
def naming
    (settings : Settings)
    (value? : Option String) : Settings :=
  { settings with
    global := { settings.global with nexthop := value? } }

theorem find?_naming
    (files : Files)
    (settings : Settings)
    (value : String) :
    find? files (naming settings (some value)) =
      if (trim value).isEmpty then none
        else some (parse files (trim value)) :=
  rfl

/- Blanks around a value make no difference. -/
theorem find?_gaps
    {front back : String}
    (hFront : IsGap front.toList)
    (hBack : IsGap back.toList)
    (files : Files)
    (settings : Settings)
    (value : String) :
    find? files (naming settings (some (front ++ value ++ back))) =
      find? files (naming settings (some value)) := by
  have hTrim : trim (front ++ value ++ back) = trim value := by
    rw [trim, trim, String.toList_append, String.toList_append,
      trimChars_gaps hFront hBack]
  rw [find?_naming, find?_naming, hTrim]

theorem find?_of_isTrimmed
    {value : String}
    (hTrimmed : IsTrimmed value)
    (hSome : value ≠ "")
    (files : Files)
    (settings : Settings) :
    find? files (naming settings (some value)) =
      some (parse files value) := by
  have hTrim : trim value = value := by
    rw [trim, hTrimmed.trimChars_eq, String.ofList_toList]
  rw [find?_naming, hTrim, if_neg]
  simpa using hSome

/- There is no nexthop if there is no value or only blanks. -/
theorem find?_eq_none_iff
    {files : Files}
    {settings : Settings} :
    find? files settings = none ↔
      ∀ value ∈ settings.global.nexthop,
        IsGap value.toList := by
  unfold find?
  cases settings.global.nexthop with
  | none => simp
  | some value =>
      have hEmpty :
          (trim value).isEmpty = true ↔ IsGap value.toList := by
        rw [← trimChars_eq_nil_iff, ← toList_trim]
        simp [← String.toList_inj]
      simp [hEmpty]

/-
  A value that is no path is read by the grammar of values,
  in which a port is written as numbers are. The settings
  give what their value is read as, whatever blanks are
  around it, unless there is nothing else.
-/
theorem reads_names
    (files : Files)
    (settings : Settings) :
    (∀ value host port,
        Names value host port →
        files.hasOther (.named value) = false →
          parse files value = .relay host port) ∧
      (∀ port < 65536, IsPort (toString port) port) ∧
      (∀ front value back : String,
        IsGap front.toList →
        IsGap back.toList →
          find? files
              (naming settings (some (front ++ value ++ back))) =
            find? files (naming settings (some value))) ∧
      (∀ value,
        IsTrimmed value →
        value ≠ "" →
          find? files (naming settings (some value)) =
            some (parse files value)) ∧
      (find? files settings = none ↔
        ∀ value ∈ settings.global.nexthop,
          IsGap value.toList) := by
  refine ⟨?_, ?_, ?_, ?_, find?_eq_none_iff⟩
  · intro value host port hNames hPath
    exact parse_of_names hNames hPath
  · intro port hFits
    exact isPort_toString hFits
  · intro front value back hFront hBack
    exact find?_gaps hFront hBack files settings value
  · intro value hTrimmed hSome
    exact find?_of_isTrimmed hTrimmed hSome files settings

/- A port after a host that has colons itself. -/
theorem reads_names_literal :
    Names "[::1]:2525" "::1" 2525 ∧
      Files.hasOther {} (.named "[::1]:2525") = false ∧
      parse {} "[::1]:2525" = .relay "::1" 2525 ∧
      IsGap " \t".toList ∧
      IsGap "\n".toList ∧
      find? {}
          (naming {} (some (" \t" ++ "[::1]:2525" ++ "\n"))) =
        find? {} (naming {} (some "[::1]:2525")) ∧
      IsTrimmed "[::1]:2525" ∧
      find? {} (naming {} (some "[::1]:2525")) =
        some (parse {} "[::1]:2525") := by
  have hReads := reads_names {} {}
  have hLiteral : IsLiteral "::1" :=
    ⟨by decide, by decide, by decide⟩
  have hPort : IsPort "2525" 2525 :=
    ⟨by decide, false, 0, by decide⟩
  have hNames : Names "[::1]:2525" "::1" 2525 :=
    .bracketedAndPort hLiteral hPort
  have hFront : IsGap " \t".toList := by decide
  have hBack : IsGap "\n".toList := by decide
  have hTrimmed : IsTrimmed "[::1]:2525" :=
    ⟨fun c hFirst => by cases hFirst; rfl,
      fun c hLast => by cases hLast; rfl⟩
  exact ⟨hNames, rfl, hReads.1 _ _ _ hNames rfl, hFront, hBack,
    hReads.2.2.1 _ _ _ hFront hBack, hTrimmed,
    hReads.2.2.2.1 _ hTrimmed (by decide)⟩

end Nexthop

end MailFilter
