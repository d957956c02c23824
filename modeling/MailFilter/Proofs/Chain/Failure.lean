import MailFilter.Proofs.Chain.Agreement
import MailFilter.Proofs.Smtp.Verdict

/-
  What becomes of a message when a module fails and the
  settings say to go on.

  Both engines take the message as dealt with by then and stop
  the chain. So it is neither written nor handed on, and an
  SMTP client is told that it was accepted.

  Key definitions include:
    * `Policy.AcceptsFailures`
    * `Queue.CarriesOn`

  Main statements:
    * `Queue.process_of_value?`
    * `Queue.carriesOn_iff`
-/

namespace MailFilter

open World

------------------------------------------------------------
-- Policies
------------------------------------------------------------

/- A failed module stops the chain, and nothing else follows. -/
def Policy.AcceptsFailures
    (policy : Policy)
    (settings : Settings) : Prop :=
  ∀ t, policy.judge settings t (-1) = (.stopAccept, t)

theorem Smtp.acceptsFailures_policy
    {settings : Settings}
    (hSetting : settings.global.moduleFail = 1) :
    Smtp.policy.AcceptsFailures settings := by
  intro t
  change Smtp.judge settings t (-1) = _
  rw [Smtp.judge, if_pos rfl, Smtp.judgeFailure, hSetting]
  rfl

theorem Pipe.acceptsFailures_policy
    {settings : Settings}
    (hSetting : settings.global.moduleFail = 1) :
    Pipe.policy.AcceptsFailures settings := by
  intro t
  change Pipe.judge settings t (-1) = _
  rw [Pipe.judge, if_pos ⟨rfl, hSetting⟩]

namespace Queue

variable {queue : Queue}
variable {settings : Settings}

------------------------------------------------------------
-- What The Chain Ends With
------------------------------------------------------------

/-
  When the modules have run, the headers are written back and
  the message is handed on.
-/
def CarriesOn
    (queue : Queue)
    (settings : Settings)
    (t : Transaction)
    (w : World) : Prop :=
  ∃ disposition : Disposition,
    disposition.IsProcessed ∧
      queue.process settings t w =
        queue.finish settings (.take t.message)
            (queue.ran settings t w).1.2.1 disposition
            (queue.ran settings t w).1.2.2
            (queue.ran settings t w).2

/- If no module failed all goes its way. -/
theorem carriesOn_of_value?_eq_none
    {t : Transaction}
    {w : World}
    (hValue : (queue.value? settings t w).1 = none) :
    queue.CarriesOn settings t w := by
  refine ⟨.completed, Or.inl rfl, ?_⟩
  rw [process_eq]
  rcases hRan : queue.ran settings t w with
    ⟨⟨outcome, names, after⟩, left⟩
  rcases outcome_of_ran hRan with
    ⟨_, rfl⟩ | ⟨value, judged, stopped, hSome, _⟩
  · rfl
  · rw [hValue] at hSome
    cases hSome

/-
  If a module failed nothing happens after it, and the result
  is that the message was accepted.
-/
theorem process_of_value?
    (hPolicy : queue.policy.AcceptsFailures settings)
    {t : Transaction}
    {w : World}
    (hValue : (queue.value? settings t w).1 = some (-1)) :
    queue.process settings t w =
      ((.ok .accepted, (queue.ran settings t w).1.2.2),
          (queue.ran settings t w).2) := by
  rw [process_eq]
  rcases hRan : queue.ran settings t w with
    ⟨⟨outcome, names, after⟩, left⟩
  rcases outcome_of_ran hRan with
    ⟨hNone, _⟩ | ⟨value, judged, stopped, hSome, rfl, hJudge⟩
  · rw [hValue] at hNone
    cases hNone
  · rw [hValue] at hSome
    cases hSome
    rw [hPolicy judged] at hJudge
    cases hJudge
    rfl

/- A message that was accepted did not go its way. -/
theorem not_carriesOn_of_accepted
    {t after : Transaction}
    {w w' : World}
    (hProcess :
      queue.process settings t w =
        ((.ok .accepted, after), w')) :
    ¬ queue.CarriesOn settings t w := by
  rintro ⟨disposition, hProcessed, hFinish⟩
  rw [hProcess] at hFinish
  have hCases :=
    queue.finish_cases settings (.take t.message)
      (queue.ran settings t w).1.2.1 disposition
      (queue.ran settings t w).1.2.2 (queue.ran settings t w).2
  rw [← hFinish] at hCases
  rcases hCases with
    ⟨_, hResult, _⟩ | ⟨_, ⟨e, hResult⟩ | ⟨told, e, hResult⟩⟩
  · cases hResult
    exact absurd hProcessed (by decide)
  · cases hResult
  · cases hResult
    exact absurd hProcessed (by decide)

/-
  What the client is told if a module failed, unless somebody
  had decided on a reply.
-/
theorem settledReply_of_value?
    (hPolicy : queue.policy.AcceptsFailures settings)
    (hKeeps : ∀ m ∈ queue.modules, m.KeepsReply settings)
    {t : Transaction}
    (hNone : t.reply = none)
    {w : World}
    (hValue : (queue.value? settings t w).1 = some (-1)) :
    ∃ text,
      Smtp.settledReply settings (queue.process settings t w).1 =
        ⟨.ok, text⟩ := by
  rw [process_of_value? hPolicy hValue]
  rcases hRan : queue.ran settings t w with
    ⟨⟨outcome, names, after⟩, left⟩
  rcases ran_cases hKeeps hRan with
    ⟨hOther, _⟩
      | ⟨value, judged, stopped, hSome, _, hReply, _, hJudge⟩
  · rw [hValue] at hOther
    cases hOther
  · rw [hValue] at hSome
    cases hSome
    rw [hPolicy judged] at hJudge
    cases hJudge
    refine ⟨after.responseMsg.getD Smtp.accepted, ?_⟩
    rw [Smtp.settledReply, Smtp.finalReply, hReply, hNone]
    rfl

------------------------------------------------------------
-- Chains With A Module That Fails
------------------------------------------------------------

/- The first module adds a field, the second one fails. -/
def markAndFail
    (policy : Policy) : Queue where
  modules := [
    .scripted "m1" [.edit (.append "X-Seen" "1")] 0,
    .scripted "m2" [] (-1)
  ]
  policy := policy

/- Failures are to be passed over, and there is a nexthop. -/
def settingsToCarryOn : Settings where
  global := {
    queueDir := "/q"
    moduleFail := 1
    nexthop := some "/out"
  }

/- A world with a spool file and a file to deliver to. -/
def worldToCarryOn
    (raw : Bytes) : World :=
  let w := World.holding raw
  { w with files := w.files.put (.named "/out") ⟨1, 1, []⟩ }

------------------------------------------------------------
-- Failures
------------------------------------------------------------

/-
  With failures to be passed over, and no other value than
  that of a failure, a message goes its way exactly if no
  module failed. If one did, what the modules left is all
  there is: the headers are not written back and nothing is
  handed on, by either engine. A client that nobody decided on
  a reply for is told that its message was accepted, and the
  exit status tells of a failure.
-/
theorem carriesOn_iff
    (hPolicy :
      queue.policy = Smtp.policy ∨ queue.policy = Pipe.policy)
    (hSetting : settings.global.moduleFail = 1)
    {t : Transaction}
    {w : World}
    (hValue :
      ∀ value, (queue.value? settings t w).1 = some value →
        value = -1) :
    (queue.CarriesOn settings t w ↔
        (queue.value? settings t w).1 = none) ∧
      ((queue.value? settings t w).1 ≠ none →
        queue.process settings t w =
            ((.ok .accepted, (queue.ran settings t w).1.2.2),
                (queue.ran settings t w).2) ∧
          Pipe.exitCode .accepted = 1 ∧
          ((∀ m ∈ queue.modules, m.KeepsReply settings) →
            t.reply = none →
            ∃ text,
              Smtp.settledReply settings
                  (queue.process settings t w).1 =
                ⟨.ok, text⟩)) := by
  have hAccepts : queue.policy.AcceptsFailures settings := by
    rcases hPolicy with hSmtp | hPipe
    · rw [hSmtp]
      exact Smtp.acceptsFailures_policy hSetting
    · rw [hPipe]
      exact Pipe.acceptsFailures_policy hSetting
  have hFailed :
      (queue.value? settings t w).1 ≠ none →
        (queue.value? settings t w).1 = some (-1) := by
    intro hSome
    rcases Option.ne_none_iff_exists'.mp hSome with
      ⟨value, hFound⟩
    rw [hFound, hValue value hFound]
  constructor
  · refine ⟨?_, carriesOn_of_value?_eq_none⟩
    intro hCarries
    by_cases hNone : (queue.value? settings t w).1 = none
    · exact hNone
    · exact absurd hCarries
        (not_carriesOn_of_accepted
          (process_of_value? hAccepts (hFailed hNone)))
  · intro hSome
    refine ⟨process_of_value? hAccepts (hFailed hSome), rfl, ?_⟩
    intro hKeeps hNone
    exact settledReply_of_value? hAccepts hKeeps hNone
      (hFailed hSome)

/-
  The message of a chain without failures is handed on with
  the field that was added. With a failure it is not.
-/
theorem carriesOn_markOnce :
    markOnce.CarriesOn settingsToCarryOn
        (.holding plainMessage) (worldToCarryOn plainMail) ∧
      (markOnce.process settingsToCarryOn
            (.holding plainMessage)
            (worldToCarryOn plainMail)).2.files.content?
          (.named "/out") =
        some markedMail ∧
      ¬ (markAndFail Pipe.policy).CarriesOn settingsToCarryOn
        (.holding plainMessage) (worldToCarryOn plainMail) := by
  have hNone :
      (markOnce.value? settingsToCarryOn
          (.holding plainMessage) (worldToCarryOn plainMail)).1 =
        none := by
    decide +kernel
  have hFailed :
      ((markAndFail Pipe.policy).value? settingsToCarryOn
          (.holding plainMessage) (worldToCarryOn plainMail)).1 =
        some (-1) := by
    decide +kernel
  have hSetting : settingsToCarryOn.global.moduleFail = 1 := rfl
  have hSmtp : markOnce.policy = Smtp.policy := rfl
  have hPipe : (markAndFail Pipe.policy).policy = Pipe.policy :=
    rfl
  have hGoes :=
    carriesOn_iff (Or.inl hSmtp) hSetting
      (t := .holding plainMessage)
      (w := worldToCarryOn plainMail)
      (by rw [hNone]; simp)
  have hStops :=
    carriesOn_iff (Or.inr hPipe) hSetting
      (t := .holding plainMessage)
      (w := worldToCarryOn plainMail)
      (by rw [hFailed]; simp)
  refine ⟨hGoes.1.mpr hNone, by decide +kernel, ?_⟩
  intro hCarries
  have hNot := hStops.1.mp hCarries
  rw [hFailed] at hNot
  cases hNot

/-
  By either engine the message of a chain with a failure is
  dropped: its file is what it was, nothing was handed on, and
  an SMTP client is told that it was accepted.
-/
theorem not_carriesOn_markAndFail :
    settingsToCarryOn.global.moduleFail = 1 ∧
      (∀ policy,
        policy = Smtp.policy ∨ policy = Pipe.policy →
        ((markAndFail policy).value? settingsToCarryOn
              (.holding plainMessage)
              (worldToCarryOn plainMail)).1 =
            some (-1) ∧
          ¬ (markAndFail policy).CarriesOn settingsToCarryOn
            (.holding plainMessage) (worldToCarryOn plainMail) ∧
          ((markAndFail policy).process settingsToCarryOn
              (.holding plainMessage)
              (worldToCarryOn plainMail)).2.files.content?
                (.named "/out") =
            some [] ∧
          ((markAndFail policy).process settingsToCarryOn
              (.holding plainMessage)
              (worldToCarryOn plainMail)).2.files.content?
                (.spooled "/q" 0) =
            some plainMail) ∧
      Smtp.settledReply settingsToCarryOn
          ((markAndFail Smtp.policy).process settingsToCarryOn
            (.holding plainMessage)
            (worldToCarryOn plainMail)).1 =
        ⟨.ok, "OK message accepted"⟩ := by
  have hDropped :
      ∀ policy : Policy,
        policy.AcceptsFailures settingsToCarryOn →
        ((markAndFail policy).value? settingsToCarryOn
              (.holding plainMessage)
              (worldToCarryOn plainMail)).1 =
            some (-1) →
        ¬ (markAndFail policy).CarriesOn settingsToCarryOn
          (.holding plainMessage) (worldToCarryOn plainMail) :=
    fun _ hAccepts hValue =>
      not_carriesOn_of_accepted
        (process_of_value? hAccepts hValue)
  refine ⟨rfl, ?_, by decide +kernel⟩
  rintro policy (rfl | rfl)
  · refine ⟨by decide +kernel, ?_, by decide +kernel,
      by decide +kernel⟩
    exact hDropped _ (Smtp.acceptsFailures_policy rfl)
      (by decide +kernel)
  · refine ⟨by decide +kernel, ?_, by decide +kernel,
      by decide +kernel⟩
    exact hDropped _ (Pipe.acceptsFailures_policy rfl)
      (by decide +kernel)

end Queue

end MailFilter
