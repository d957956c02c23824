import MailFilter.Pipe
import MailFilter.Proofs.Chain.Passage
import MailFilter.Smtp.Policy

/-
  What writing the headers back and handing a message on do
  to the spool file and to the message.

  Key definitions include:
    * `Chain.Exit`

  Main statements:
    * `Chain.exists_exit`
    * `Chain.exists_flush_of_clean`
    * `Chain.flush_of_ok`
    * `Queue.handOn_of_keepsMessage`
-/

namespace MailFilter

open World

------------------------------------------------------------
-- Writing The Headers Back
------------------------------------------------------------

namespace Chain

/-
  How writing the headers back can end: there is nothing to
  write, or the file cannot be read, or it can be and replacing
  it takes one of its exits. The transaction is another one
  only if the file was replaced.
-/
inductive Exit
    (before : Snapshot)
    (settings : Settings)
    (t : Transaction)
    (files : Files) :
    Except SpoolError Bool → Transaction → Files → Prop
  | unchanged
      (clean :
        ∀ message, t.message = some message →
          before.isDirty (.take (some message)) = false) :
      Exit before settings t files (.ok false) t files
  | notRead {message : Message} {fault : Fault}
      (attached : t.message = some message)
      (dirty : before.isDirty (.take (some message)) = true)
      (read :
        files.read t.envelope.messageFile = .error fault) :
      Exit before settings t files
        (.error ⟨.read, t.envelope.messageFile, fault⟩) t files
  | notReplaced {message : Message} {raw : Bytes}
      {e : SpoolError} {after : Files}
      (attached : t.message = some message)
      (dirty : before.isDirty (.take (some message)) = true)
      (read : files.read t.envelope.messageFile = .ok raw)
      (exit :
        Spool.Exit settings.global.queueDir
          t.envelope.messageFile
          (message.block ++ raw.drop message.bodyOffset) files
          (.error e) after) :
      Exit before settings t files (.error e) t after
  | written {message : Message} {raw : Bytes} {after : Files}
      (attached : t.message = some message)
      (dirty : before.isDirty (.take (some message)) = true)
      (read : files.read t.envelope.messageFile = .ok raw)
      (exit :
        Spool.Exit settings.global.queueDir
          t.envelope.messageFile
          (message.block ++ raw.drop message.bodyOffset) files
          (.ok ()) after) :
      Exit before settings t files (.ok true)
        (t.withMessage (some message.rebase)) after

/- Writing the headers back takes one of the exits. -/
theorem exists_exit
    (before : Snapshot)
    (settings : Settings)
    (t : Transaction)
    (w : World) :
    ∃ result flushed after,
      flush before settings t w = ((result, flushed), after) ∧
        Exit before settings t w.files result flushed
          after.files := by
  unfold flush
  cases hMessage : t.message with
  | none =>
      refine ⟨_, _, _, rfl, .unchanged ?_⟩
      rw [hMessage]
      exact fun _ hSome => nomatch hSome
  | some message =>
      dsimp only
      split
      · rename_i hDirty
        simp only [Run.bind_apply, replaceBlock,
          Spool.read_apply, files_say]
        cases hRead : w.files.read t.envelope.messageFile with
        | error fault =>
            exact ⟨_, _, _, rfl, .notRead hMessage hDirty hRead⟩
        | ok raw =>
            dsimp only
            rcases Spool.exists_exit settings.global.queueDir
                t.envelope.messageFile
                [message.block, raw.drop message.bodyOffset]
                (say .debug ("Headers changed, rewriting " ++
                  t.envelope.messageFile.render) w).2 with
              ⟨result, after, hReplace, hExit⟩
            rw [hReplace]
            simp only [List.flatten_cons, List.flatten_nil,
              List.append_nil] at hExit
            cases result with
            | error e =>
                exact ⟨_, _, _, rfl,
                  .notReplaced hMessage hDirty hRead hExit⟩
            | ok done =>
                exact ⟨_, _, _, rfl,
                  .written hMessage hDirty hRead hExit⟩
      · rename_i hClean
        refine ⟨_, _, _, rfl, .unchanged ?_⟩
        intro other hOther
        rw [hMessage] at hOther
        cases hOther
        exact Bool.eq_false_iff.mpr hClean

/- Headers that are those of the snapshot are not written. -/
theorem exists_flush_of_clean
    {before : Snapshot}
    (settings : Settings)
    {t : Transaction}
    (hClean :
      ∀ message, t.message = some message →
        before.isDirty (.take (some message)) = false)
    (w : World) :
    ∃ after,
      flush before settings t w = ((.ok false, t), after) ∧
        after.files = w.files := by
  unfold flush
  cases hMessage : t.message with
  | none => exact ⟨w, rfl, rfl⟩
  | some message =>
      simp only [hClean message hMessage, Bool.false_eq_true,
        if_false]
      exact ⟨_, rfl, rfl⟩

/-
  The headers are either those of the snapshot, and nothing
  is done, or the file is replaced.
-/
theorem flush_of_ok
    {before : Snapshot}
    {settings : Settings}
    {t flushed : Transaction}
    {w after : World}
    {written : Bool}
    (hFlush :
      flush before settings t w =
        ((.ok written, flushed), after)) :
    (flushed = t ∧
        after.files = w.files ∧
        ∀ message, t.message = some message →
          before.isDirty (.take (some message)) = false) ∨
      ∃ message raw,
        t.message = some message ∧
          before.isDirty (.take (some message)) = true ∧
          w.files.content? t.envelope.messageFile = some raw ∧
          after.files.content? t.envelope.messageFile =
            some (message.block ++
              raw.drop message.bodyOffset) ∧
          flushed = t.withMessage (some message.rebase) := by
  rcases exists_exit before settings t w with
    ⟨result, other, final, hExits, hExit⟩
  cases hFlush.symm.trans hExits
  generalize hFiles : after.files = files at hExit
  cases hExit with
  | unchanged clean => exact Or.inl ⟨rfl, rfl, clean⟩
  | written attached dirty read exit =>
      exact Or.inr ⟨_, _, attached, dirty,
        Files.content?_of_read read, exit.content?_of_ok, rfl⟩

end Chain

------------------------------------------------------------
-- Policies
------------------------------------------------------------

/- The SMTP engine only decides on replies. -/
theorem Smtp.keepsMessage_policy :
    Smtp.policy.KeepsMessage := by
  constructor
  · intro settings t value
    change (Smtp.judge settings t value).2.message = _ ∧
      (Smtp.judge settings t value).2.envelope.messageFile =
        _
    unfold Smtp.judge Smtp.judgeFailure
    repeat' split
    all_goals exact ⟨rfl, rfl⟩
  · intro settings t e
    exact ⟨rfl, rfl⟩

/- The pipe engine changes nothing at all. -/
theorem Pipe.keepsMessage_policy :
    Pipe.policy.KeepsMessage := by
  constructor
  · intro settings t value
    change (Pipe.judge settings t value).2.message = _ ∧
      (Pipe.judge settings t value).2.envelope.messageFile =
        _
    unfold Pipe.judge
    repeat' split
    all_goals exact ⟨rfl, rfl⟩
  · intro settings t e
    exact ⟨rfl, rfl⟩

------------------------------------------------------------
-- Handing The Message On
------------------------------------------------------------

/- A file that was copied is what it was. -/
theorem Files.content?_of_copy
    {files after : Files}
    {source target : Path}
    (hCopy : files.copy source target = .ok after) :
    after.content? source = files.content? source := by
  unfold Files.copy at hCopy
  split at hCopy
  · cases hCopy
  · rename_i content hRead
    dsimp only at hCopy
    split at hCopy
    · cases hCopy
    · split at hCopy
      · cases hCopy
        rfl
      · cases hCopy
        rw [Files.content?_of_read hRead]
        change ((files.put _ _).file? source).map _ = _
        rw [Files.file?_put]
        split
        · rfl
        · exact Files.content?_of_read hRead

namespace Nexthop

/- A relay changes no files. -/
theorem files_relayTo
    (t : Transaction)
    (host : String)
    (port : Nat)
    (w : World) :
    (relayTo t host port w).2.files = w.files := by
  simp only [relayTo, Run.bind_apply, Run.get_apply]
  cases w.files.read t.envelope.messageFile with
  | error fault => rfl
  | ok data =>
      cases w.network.relays.lookup (host, port) with
      | none => rfl
      | some script => rfl

theorem content?_copyTo
    (t : Transaction)
    (target : Path)
    (w : World) :
    (copyTo t target w).2.files.content?
        t.envelope.messageFile =
      w.files.content? t.envelope.messageFile := by
  simp only [copyTo, Run.bind_apply, Run.get_apply, files_say]
  cases hCopy :
      w.files.copy t.envelope.messageFile target with
  | ok files => exact Files.content?_of_copy hCopy
  | error fault => rfl

/- Only the recipients of the envelope may be others. -/
theorem exists_withRecipients_eq
    (t : Transaction) :
    ∃ recipients,
      withRecipients t =
        { t with
          envelope := { t.envelope with
            recipients := recipients } } := by
  unfold withRecipients
  split
  · exact ⟨_, rfl⟩
  · exact ⟨_, rfl⟩

/- Delivering keeps the message and its spool file. -/
theorem deliver_apply
    (nexthop : Nexthop)
    (t : Transaction)
    (w : World) :
    (nexthop.deliver t w).1.2.message = t.message ∧
      (nexthop.deliver t w).1.2.envelope.messageFile =
        t.envelope.messageFile ∧
      (nexthop.deliver t w).2.files.content?
          t.envelope.messageFile =
        w.files.content? t.envelope.messageFile := by
  cases nexthop with
  | file path =>
      refine ⟨rfl, rfl, ?_⟩
      exact content?_copyTo t path w
  | relay host port =>
      have hFiles := files_relayTo (withRecipients t) host port w
      simp only [deliver, Run.bind_apply, Run.pure_apply]
      rw [hFiles]
      rcases exists_withRecipients_eq t with ⟨recipients, hEq⟩
      rw [hEq]
      exact ⟨rfl, rfl, rfl⟩

end Nexthop

namespace Queue

/- Handing a message on keeps its spool file. -/
theorem content?_handOn
    (queue : Queue)
    (settings : Settings)
    (t : Transaction)
    (w : World) :
    (queue.handOn settings t w).2.files.content?
        t.envelope.messageFile =
      w.files.content? t.envelope.messageFile := by
  simp only [handOn, Run.bind_apply, Run.get_apply]
  cases Nexthop.find? w.files settings with
  | none => rfl
  | some nexthop =>
      have hKept := (nexthop.deliver_apply t w).2.2
      simp only [Run.bind_apply]
      cases (nexthop.deliver t w).1.1 with
      | ok result => exact hKept
      | error e => exact hKept

theorem handOn_of_keepsMessage
    {queue : Queue}
    (hPolicy : queue.policy.KeepsMessage)
    (settings : Settings)
    (t : Transaction)
    (w : World) :
    (queue.handOn settings t w).1.message = t.message ∧
      (queue.handOn settings t w).1.envelope.messageFile =
        t.envelope.messageFile := by
  simp only [handOn, Run.bind_apply, Run.get_apply]
  cases Nexthop.find? w.files settings with
  | none => exact ⟨rfl, rfl⟩
  | some nexthop =>
      rcases nexthop.deliver_apply t w with
        ⟨hMessage, hFile, _⟩
      simp only [Run.bind_apply]
      cases (nexthop.deliver t w).1.1 with
      | ok result => exact ⟨hMessage, hFile⟩
      | error e =>
          have hAgain :=
            hPolicy.undelivered settings
              (nexthop.deliver t w).1.2 e
          exact ⟨hAgain.1.trans hMessage,
            hAgain.2.trans hFile⟩

end Queue

end MailFilter
