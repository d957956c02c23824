import MailFilter.Proofs.Chain.Course
import MailFilter.Proofs.Smtp.FinalReply
import MailFilter.Text.Line

/-
  What the replies to a client are made of.

  A reply has a code of a reply, and its text comes from the
  program, the settings, the name of the host, or a module. So
  what holds of all these texts holds of all that is sent.

  Key definitions include:
    * `Reply.IsProper`
    * `Transaction.IsProper`
    * `Smtp.OwnTexts`
    * `Smtp.Service.Speaks`
    * `Smtp.Answer.IsProper`

  Main statements:
    * `Queue.isProper_process`
    * `Smtp.isProper_replyTo`
    * `Smtp.Answers.isProper`
-/

namespace MailFilter

open World

variable {allowed : String → Prop}

------------------------------------------------------------
-- Texts
------------------------------------------------------------

/- A reply with a code of a reply and a text that is allowed. -/
structure Reply.IsProper
    (allowed : String → Prop)
    (reply : Reply) : Prop where
  code : reply.status.IsReplyCode
  text : allowed reply.text

/- What was decided on about the reply is allowed. -/
structure Transaction.IsProper
    (allowed : String → Prop)
    (t : Transaction) : Prop where
  reply : ∀ reply, t.reply = some reply → reply.IsProper allowed
  text : ∀ text, t.responseMsg = some text → allowed text

/- The texts that are part of the program are allowed. -/
structure Smtp.OwnTexts
    (allowed : String → Prop) : Prop where
  default : ∀ status : Status, allowed status.defaultText
  refusal :
    ∀ command reply, Refuses command reply → allowed reply.text
  accepted : allowed Smtp.accepted
  lineTooLong : allowed Refusal.lineTooLong.text

/- The texts of the settings are allowed. -/
structure Settings.Speaks
    (allowed : String → Prop)
    (settings : Settings) : Prop where
  codes :
    ∀ status text,
      settings.replyText status = some text → allowed text
  nexthop : allowed settings.smtpd.nexthopFailMsg

/- The text that a module wants to be sent is allowed. -/
def Module.Speaks
    (allowed : String → Prop)
    (settings : Settings)
    (m : Module) : Prop :=
  ∀ t files,
    (∀ text, t.responseMsg = some text → allowed text) →
    ∀ text,
      (m.run settings t files).2.1.responseMsg = some text →
      allowed text

/- All texts that a service sends are allowed. -/
structure Smtp.Service.Speaks
    (allowed : String → Prop)
    (service : Service) : Prop where
  hostname : allowed service.hostname
  settings : service.settings.Speaks allowed
  modules :
    ∀ m ∈ service.queue.modules,
      m.Speaks allowed service.settings

/- More texts may be allowed. -/
theorem Smtp.OwnTexts.mono
    (hOwn : OwnTexts allowed)
    {more : String → Prop}
    (hMore : ∀ text, allowed text → more text) :
    OwnTexts more where
  default status := hMore _ (hOwn.default status)
  refusal command reply hRefuses :=
    hMore _ (hOwn.refusal command reply hRefuses)
  accepted := hMore _ hOwn.accepted
  lineTooLong := hMore _ hOwn.lineTooLong

/- A service need not keep to what is allowed. -/
theorem Smtp.Service.speaks_imp
    (service : Service)
    (allowed : String → Prop) :
    service.Speaks
      fun text => service.Speaks allowed → allowed text where
  hostname hSpeaks := hSpeaks.hostname
  settings :=
    { codes := fun status text hText hSpeaks =>
        hSpeaks.settings.codes status text hText
      nexthop := fun hSpeaks => hSpeaks.settings.nexthop }
  modules m hMem t files hBefore text hText hSpeaks :=
    hSpeaks.modules m hMem t files
      (fun other hOther => hBefore other hOther hSpeaks) text
      hText

------------------------------------------------------------
-- Replies
------------------------------------------------------------

theorem Status.isReplyCode_ok :
    IsReplyCode .ok := by
  decide

namespace Reply

variable {settings : Settings}
variable (hOwn : Smtp.OwnTexts allowed)
variable (hSettings : settings.Speaks allowed)

include hOwn hSettings

theorem isProper_configured
    {status : Status}
    (hCode : status.IsReplyCode) :
    (configured settings status).IsProper allowed := by
  refine ⟨hCode, ?_⟩
  cases hText : settings.replyText status with
  | none =>
      simp only [configured, hText, Option.getD_none]
      exact hOwn.default status
  | some text =>
      simp only [configured, hText, Option.getD_some]
      exact hSettings.codes status text hText

/- Every code that is chosen gives such a reply. -/
theorem isProper_forCode
    (code : Nat)
    {text : Option String}
    (hText : ∀ chosen, text = some chosen → allowed chosen) :
    (forCode settings code text).IsProper allowed := by
  have hLocal :
      (configured settings .actionUnavailable).IsProper
        allowed :=
    isProper_configured hOwn hSettings (by decide)
  unfold forCode
  dsimp only
  split
  · rename_i hCode
    cases text with
    | some chosen => exact ⟨hCode, hText chosen rfl⟩
    | none =>
        cases hEntry : settings.replyText (.ofCode code) with
        | some entry =>
            exact ⟨hCode, hSettings.codes _ _ hEntry⟩
        | none =>
            cases hText : (Status.ofCode code).hasOwnText with
            | true => exact ⟨hCode, hOwn.default _⟩
            | false => exact hLocal
  · exact hLocal

end Reply

------------------------------------------------------------
-- The Chain
------------------------------------------------------------

namespace Transaction.IsProper

variable {t after : Transaction}

/- It is about what was decided on only. -/
theorem congr
    (hProper : t.IsProper allowed)
    (hSame : after.decision = t.decision) :
    after.IsProper allowed := by
  have hReply : after.reply = t.reply :=
    congrArg Prod.fst hSame
  have hText : after.responseMsg = t.responseMsg :=
    congrArg Prod.snd hSame
  refine ⟨?_, ?_⟩
  · rw [hReply]
    exact hProper.reply
  · rw [hText]
    exact hProper.text

theorem of_undecided
    (hNone : t.decision = (none, none)) :
    t.IsProper allowed := by
  have hReply : t.reply = none := congrArg Prod.fst hNone
  have hText : t.responseMsg = none := congrArg Prod.snd hNone
  refine ⟨?_, ?_⟩
  · rw [hReply]
    exact fun _ hSome => nomatch hSome
  · rw [hText]
    exact fun _ hSome => nomatch hSome

/- The reply to a message that was taken. -/
theorem taken
    (hProper : t.IsProper allowed)
    (hOwn : Smtp.OwnTexts allowed) :
    (⟨.ok, t.responseMsg.getD Smtp.accepted⟩ :
      Reply).IsProper allowed := by
  refine ⟨Status.isReplyCode_ok, ?_⟩
  cases hText : t.responseMsg with
  | none => exact hOwn.accepted
  | some text => exact hProper.text text hText

/- Deciding on such a reply. -/
theorem decide
    (hProper : t.IsProper allowed)
    {reply : Reply}
    (hReply : reply.IsProper allowed) :
    (Smtp.decide t reply).IsProper allowed := by
  refine ⟨?_, hProper.text⟩
  intro other hOther
  cases hOther
  exact hReply

end Transaction.IsProper

namespace Smtp

variable {settings : Settings}
variable (hOwn : OwnTexts allowed)
variable (hSettings : settings.Speaks allowed)

include hOwn hSettings

/- What the policy decides on is allowed. -/
theorem isProper_judge
    {t : Transaction}
    (hProper : t.IsProper allowed)
    (value : Int) :
    (judge settings t value).2.IsProper allowed := by
  unfold judge
  split
  · unfold judgeFailure
    split
    · exact hProper
    · exact hProper.decide
        (Reply.isProper_configured hOwn hSettings (by decide))
    · exact hProper.decide
        (Reply.isProper_configured hOwn hSettings (by decide))
    · exact hProper
  · split
    · exact hProper.decide (hProper.taken hOwn)
    · split
      · exact hProper
      · exact hProper.decide
          (Reply.isProper_forCode hOwn hSettings _ hProper.text)

theorem isProper_undelivered
    {t : Transaction}
    (hProper : t.IsProper allowed)
    (e : DeliveryError) :
    (policy.undelivered settings t e).IsProper allowed := by
  apply hProper.decide
  apply Reply.isProper_forCode hOwn hSettings
  intro text hText
  cases hText
  exact hSettings.nexthop

end Smtp

namespace Queue

variable {queue : Queue}
variable {settings : Settings}
variable (hOwn : Smtp.OwnTexts allowed)
variable (hSettings : settings.Speaks allowed)
variable (hPolicy : queue.policy = Smtp.policy)
variable (hKeeps : ∀ m ∈ queue.modules, m.KeepsReply settings)
variable (hModules :
  ∀ m ∈ queue.modules, m.Speaks allowed settings)

include hOwn hSettings hPolicy hKeeps hModules

/- No step of a chain decides on anything else. -/
theorem isProper_takes
    {before : Snapshot}
    {step : Step}
    {s s' : Transaction × World}
    (hTakes : Step.Takes queue settings before step s s')
    (hProper : s.1.IsProper allowed) :
    s'.1.IsProper allowed := by
  cases hTakes with
  | fetched t w =>
      exact hProper.congr
        (Transaction.decision_of_settled
          (settled_askAll queue.lookup _ t w))
  | invoked hMem hInvoke =>
      rename_i m value t after w w'
      have hDecision :=
        Transaction.decision_of_settled
          (m.settled_invoke settings t w)
      rw [hInvoke] at hDecision
      have hRan :
          (m.run settings t w.files).2.1.IsProper allowed := by
        refine ⟨?_, hModules m hMem t w.files hProper.text⟩
        rw [hKeeps m hMem]
        exact hProper.reply
      exact hRan.congr hDecision
  | judged w hJudge =>
      rename_i value outcome t after
      have hJudged :=
        Smtp.isProper_judge hOwn hSettings hProper value
      rw [hPolicy] at hJudge
      change Smtp.judge settings t value = _ at hJudge
      rw [hJudge] at hJudged
      exact hJudged
  | marked names t w => exact hProper.congr rfl
  | flushed hFlush =>
      rename_i result t after w w'
      have hDecision :=
        Transaction.decision_of_settled
          (Chain.settled_flush before settings t w)
      rw [hFlush] at hDecision
      exact hProper.congr hDecision
  | delivered hFind hDeliver =>
      rename_i nexthop result t after w w'
      have hDecision :=
        Transaction.decision_of_settled
          (nexthop.settled_deliver t w)
      rw [hDeliver] at hDecision
      exact hProper.congr hDecision
  | told error t w =>
      rw [hPolicy]
      exact Smtp.isProper_undelivered hOwn hSettings hProper
        error

/- So neither does the chain. -/
theorem isProper_process
    {t : Transaction}
    (hProper : t.IsProper allowed)
    (w : World) :
    (queue.process settings t w).1.2.IsProper allowed := by
  rcases queue.exists_performs settings t w with
    ⟨calls, verdicts, finish, -, hPerforms⟩
  apply hPerforms.keeps fun s => s.1.IsProper allowed
  · exact fun t w event hInv => hInv
  · intro step s s' hTakes hInv
    exact isProper_takes hOwn hSettings hPolicy hKeeps hModules
      hTakes hInv
  · exact hProper

end Queue

------------------------------------------------------------
-- Messages And Commands
------------------------------------------------------------

namespace Smtp

/- An answer with texts that are allowed. -/
def Answer.IsProper
    (allowed : String → Prop) : Answer → Prop
  | .single reply => reply.IsProper allowed
  | .extended hostname _ => allowed hostname

/- Its code is one of a reply. -/
theorem Answer.IsProper.isReplyCode
    {answer : Answer}
    (hProper : answer.IsProper allowed) :
    200 ≤ answer.code ∧ answer.code ≤ 599 := by
  cases answer with
  | single reply => exact hProper.code
  | extended hostname maxSize =>
      change 200 ≤ 250 ∧ 250 ≤ 599
      decide

theorem Answer.IsProper.mono
    {other : String → Prop}
    {answer : Answer}
    (hProper : answer.IsProper allowed)
    (hAllowed : ∀ text, allowed text → other text) :
    answer.IsProper other := by
  cases answer with
  | single reply =>
      exact ⟨hProper.code, hAllowed _ hProper.text⟩
  | extended hostname maxSize => exact hAllowed _ hProper

/- So are the codes and texts of all answers. -/
theorem Answers.isProper
    (hOwn : OwnTexts allowed)
    {settings : Settings}
    (hSettings : settings.Speaks allowed)
    {hostname : String}
    (hHostname : allowed hostname)
    {command : Command}
    {answer : Answer}
    (hAnswers : Answers settings hostname command answer) :
    answer.IsProper allowed := by
  cases hAnswers with
  | greeted _ => exact ⟨Status.isReplyCode_ok, hHostname⟩
  | extended _ => exact hHostname
  | acknowledged _ =>
      exact Reply.isProper_configured hOwn hSettings (by decide)
  | started =>
      exact Reply.isProper_configured hOwn hSettings (by decide)
  | failed =>
      exact Reply.isProper_configured hOwn hSettings (by decide)
  | left =>
      exact Reply.isProper_configured hOwn hSettings (by decide)
  | refused hRefuses =>
      refine ⟨?_, hOwn.refusal _ _ hRefuses⟩
      cases hRefuses <;> decide

/- What the client is told about a message from the chain. -/
theorem isProper_settledReply
    (hOwn : OwnTexts allowed)
    {settings : Settings}
    (hSettings : settings.Speaks allowed)
    {t : Transaction}
    (hProper : t.IsProper allowed)
    (result : Except SpoolError Disposition) :
    (settledReply settings (result, t)).IsProper allowed := by
  have hLocal :
      (Reply.configured settings .actionUnavailable).IsProper
        allowed :=
    Reply.isProper_configured hOwn hSettings (by decide)
  cases result with
  | error e => exact hLocal
  | ok disposition =>
      rw [settledReply, finalReply]
      cases hReply : t.reply with
      | some reply => exact hProper.reply reply hReply
      | none =>
          dsimp only
          split
          · exact hLocal
          · exact hProper.taken hOwn

/- So are the replies to messages. -/
theorem isProper_replyTo
    (hOwn : OwnTexts allowed)
    {service : Service}
    (hSettings : service.settings.Speaks allowed)
    (hPolicy : service.queue.policy = policy)
    (hKeeps :
      ∀ m ∈ service.queue.modules,
        m.KeepsReply service.settings)
    (hModules :
      ∀ m ∈ service.queue.modules,
        m.Speaks allowed service.settings)
    {read : MessageRead}
    {rest : Inbound}
    (hRest : read.rest? = some rest)
    {t : Transaction}
    (hProper : t.IsProper allowed)
    (w : World) :
    (replyTo service read t w).1.1.IsProper allowed := by
  rcases replyTo_loss_or_settled service hRest t w with
    ⟨-, hLoss⟩ | ⟨message, between, -, hSettled⟩
  · generalize (replyTo service read t w).1.1 = reply
      at hLoss ⊢
    cases hLoss with
    | lineTooLong => exact ⟨by decide, hOwn.lineTooLong⟩
    | actionUnavailable =>
        exact Reply.isProper_configured hOwn hSettings
          (by decide)
    | exceededStorage =>
        exact Reply.isProper_configured hOwn hSettings
          (by decide)
  · rw [hSettled]
    apply isProper_settledReply hOwn hSettings
    apply Queue.isProper_process hOwn hSettings hPolicy
      hKeeps hModules
    exact hProper.congr rfl

------------------------------------------------------------
-- Lines
------------------------------------------------------------

/- A line as it is sent. -/
def sentLine
    (line : String) : Bytes :=
  Utf8.encode line ++ Bytes.crlf

/- What is sent for an answer. -/
def Answer.sent
    (answer : Answer) : List Bytes :=
  answer.lines.map sentLine

end Smtp

/- A text that stays on its line. -/
def Text.IsPlain
    (text : String) : Prop :=
  '\r' ∉ text.toList ∧ '\n' ∉ text.toList

instance
    (text : String) :
    Decidable (Text.IsPlain text) :=
  inferInstanceAs (Decidable (_ ∧ _))

namespace Text

theorem isPlain_append_iff
    {front back : String} :
    IsPlain (front ++ back) ↔ IsPlain front ∧ IsPlain back := by
  simp only [IsPlain, String.toList_append, List.mem_append,
    not_or]
  exact and_and_and_comm

theorem isPlain_append
    {front back : String}
    (hFront : IsPlain front)
    (hBack : IsPlain back) :
    IsPlain (front ++ back) :=
  isPlain_append_iff.mpr ⟨hFront, hBack⟩

theorem isPlain_toString
    (number : Nat) :
    IsPlain (toString number) := by
  constructor
  · intro hMem
    exact absurd (isDigit_of_mem_toString hMem) (by decide)
  · intro hMem
    exact absurd (isDigit_of_mem_toString hMem) (by decide)

end Text

/- A reply stays on its line if its text does. -/
theorem Reply.isPlain_render_iff
    {reply : Reply} :
    Text.IsPlain reply.render ↔ Text.IsPlain reply.text := by
  have hCode : Text.IsPlain (reply.status.render ++ " ") :=
    Text.isPlain_append (Text.isPlain_toString _) (by decide)
  rw [render, Text.isPlain_append_iff, and_iff_right hCode]

namespace Smtp

/- The texts of the program stay on their lines. -/
theorem isPlain_ownTexts :
    OwnTexts Text.IsPlain where
  default status := by
    unfold Status.defaultText
    split <;> decide
  refusal command reply hRefuses := by
    cases hRefuses <;> decide
  accepted := by decide
  lineTooLong := by decide

/- One line that ends the way lines are sent. -/
def IsReplyLine
    (line : Bytes) : Prop :=
  ∃ front,
    line = front ++ Bytes.crlf ∧
      Bytes.cr ∉ front ∧
      Bytes.lf ∉ front

theorem isReplyLine_sentLine_iff
    {text : String} :
    IsReplyLine (sentLine text) ↔ Text.IsPlain text := by
  constructor
  · rintro ⟨front, hSplit, hCr, hLf⟩
    rw [← List.append_cancel_right hSplit] at hCr hLf
    constructor
    · intro hMem
      exact hCr (List.mem_flatMap.mpr ⟨_, hMem, by decide⟩)
    · intro hMem
      exact hLf (List.mem_flatMap.mpr ⟨_, hMem, by decide⟩)
  · intro hPlain
    refine ⟨Utf8.encode text, rfl, ?_, ?_⟩
    · intro hMem
      exact hPlain.1 (Utf8.mem_of_mem_encode (by decide) hMem)
    · intro hMem
      exact hPlain.2 (Utf8.mem_of_mem_encode (by decide) hMem)

/- Answers whose texts are plain are lines. -/
theorem Answer.IsProper.isReplyLine
    {answer : Answer}
    (hProper : answer.IsProper Text.IsPlain)
    {line : Bytes}
    (hMem : line ∈ answer.sent) :
    IsReplyLine line := by
  rcases List.mem_map.mp hMem with ⟨text, hText, rfl⟩
  apply isReplyLine_sentLine_iff.mpr
  cases answer with
  | single reply =>
      cases List.mem_singleton.mp hText
      exact Reply.isPlain_render_iff.mpr hProper.text
  | extended hostname maxSize =>
      have hOk : Text.IsPlain (Status.ok.render ++ "-") := by
        decide
      simp only [lines, List.mem_cons, List.not_mem_nil,
        or_false] at hText
      rcases hText with rfl | rfl | rfl
      · exact Text.isPlain_append hOk hProper
      · decide
      · apply Text.isPlain_append
        · decide
        · exact Text.isPlain_toString maxSize

end Smtp

end MailFilter
