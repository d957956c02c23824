import MailFilter.Chain.Queue
import MailFilter.Chain.Script
import MailFilter.Proofs.Alike
import MailFilter.Proofs.Chain.Places

/-
  A chain cannot tell two runs apart if its modules and its
  policy cannot.

  Key definitions include:
    * `Module.TreatsAlike`
    * `Policy.TreatsAlike`
    * `Queue.TreatsAlike`

  Main statements:
    * `Module.TreatsAlike.invoke`
    * `Module.treatsAlike_scripted`
    * `Queue.TreatsAlike.runModules`
    * `Queue.TreatsAlike.process`
-/

namespace MailFilter

open World

------------------------------------------------------------
-- Modules And Policies
------------------------------------------------------------

/-
  A module is a function of what it is shown: of messages that
  are alike it makes messages that are alike, whatever their
  numbers are.
-/
def Module.TreatsAlike
    (m : Module)
    (settings : Settings) : Prop :=
  ∀ (a b : World) (t u : Transaction) (files others : Files),
    Transaction.Alike a b t u →
    Files.Alike a b files others →
    Both Eq (Both (Transaction.Alike a b) (Files.Alike a b))
      (m.run settings t files) (m.run settings u others)

/-
  So is a policy. What it makes of a failed delivery is also
  the same for every failure.
-/
structure Policy.TreatsAlike
    (policy : Policy)
    (settings : Settings) : Prop where
  judge :
    ∀ (a b : World) (t u : Transaction) (value : Int),
      Transaction.Alike a b t u →
      Both Eq (Transaction.Alike a b)
        (policy.judge settings t value)
        (policy.judge settings u value)
  undelivered :
    ∀ (a b : World) (t u : Transaction) (e d : DeliveryError),
      Transaction.Alike a b t u →
      Transaction.Alike a b (policy.undelivered settings t e)
        (policy.undelivered settings u d)

/- A chain of such modules with such a policy. -/
structure Queue.TreatsAlike
    (queue : Queue)
    (settings : Settings) : Prop where
  modules : ∀ m ∈ queue.modules, m.TreatsAlike settings
  policy : queue.policy.TreatsAlike settings

variable {a b : World}
variable {t u : Transaction}
variable {settings : Settings}

namespace Module

variable {m : Module}

/- A message is loaded again on each side, or on none. -/
theorem alike_reload
    (m : Module)
    {path other : Path}
    (hPath : Path.Alike a b path other)
    (hSame : Transaction.Alike a b t u) :
    Run.Alike a b (Transaction.Alike a b) (m.reload path t)
      (m.reload other u) := by
  refine .bind (.emit _ _) fun _ _ _ => ?_
  refine .bind (Spool.alike_load hPath) ?_
  intro loaded twin hLoaded
  cases hLoaded with
  | error e d =>
      exact .bind (.emit _ _) fun _ _ _ => .pure hSame
  | @ok message _ hMessage =>
      subst hMessage
      exact .pure (hSame.withMessage _)

/- A module is shown the same, and comes to the same. -/
theorem TreatsAlike.invoke
    (hTreats : m.TreatsAlike settings)
    (hSame : Transaction.Alike a b t u) :
    Run.Alike a b (Both Eq (Transaction.Alike a b))
      (m.invoke settings t) (m.invoke settings u) := by
  intro w v hWorld
  have hNote :
      (Note.invoked m.name m.library.isSome t
          (w.files.content? t.envelope.messageFile)).view? =
        (Note.invoked m.name m.library.isSome u
            (v.files.content? u.envelope.messageFile)).view? := by
    simp only [Note.view?, hSame.view,
      hWorld.files.content? hSame.path]
  have hNoted := (Run.Alike.record hNote w v hWorld).2
  have hRun := hTreats a b t u w.files v.files hSame hWorld.files
  rcases hLeft : m.run settings t w.files with
    ⟨value, left, files⟩
  rcases hTwin : m.run settings u v.files with
    ⟨other, twin, others⟩
  rw [hLeft, hTwin] at hRun
  rcases hRun with ⟨hValue, hAlike, hFiles⟩
  dsimp only at hValue hAlike hFiles
  subst hValue
  have hAfter := hNoted.setFiles hFiles
  have hTouched :=
    not_congr (hWorld.files.modified?_eq_iff hFiles hSame.path)
  simp only [Module.invoke, Run.bind_apply, Run.get_apply,
    setFiles_apply, hLeft, hTwin]
  by_cases hReload :
      value = 0 ∧
        files.modified? t.envelope.messageFile ≠
          w.files.modified? t.envelope.messageFile
  · rw [if_pos hReload,
      if_pos ⟨hReload.1, hTouched.mp hReload.2⟩]
    exact Run.Alike.bind (m.alike_reload hSame.path hAlike)
      (fun _ _ hLoaded => .pure ⟨rfl, hLoaded⟩) _ _ hAfter
  · rw [if_neg hReload, if_neg fun hTwin =>
      hReload ⟨hTwin.1, hTouched.mpr hTwin.2⟩]
    exact ⟨⟨rfl, hAlike⟩, hAfter⟩

end Module

/-
  An action that renames no directory. Renaming may move spool
  files over other ones.
-/
def Action.KeepsDirectories : Action → Prop
  | .renameDirectory _ _ => False
  | _ => True

/- An action does the same on each side. -/
theorem Action.alike_run
    {action : Action}
    (hKeeps : action.KeepsDirectories)
    {files others : Files}
    (hBoth :
      Both (Transaction.Alike a b) (Files.Alike a b) (t, files)
        (u, others)) :
    Both (Transaction.Alike a b) (Files.Alike a b)
      (action.run (t, files)) (action.run (u, others)) := by
  rcases hBoth with ⟨hSame, hFiles⟩
  cases action with
  | edit change =>
      exact ⟨hSame.map (·.mapMessage change.apply)
        (fun _ => rfl) fun _ => rfl, hFiles⟩
  | responseMsg text =>
      exact ⟨hSame.map (fun t => { t with responseMsg := text })
        (fun _ => rfl) fun _ => rfl, hFiles⟩
  | reply code text =>
      exact ⟨hSame.map
        (fun t => { t with reply := some ⟨.ofCode code, text⟩ })
        (fun _ => rfl) fun _ => rfl, hFiles⟩
  | sender address =>
      exact ⟨hSame.map
        (fun t => { t with
          envelope := { t.envelope with sender := address } })
        (fun _ => rfl) fun _ => rfl, hFiles⟩
  | recipients addresses =>
      exact ⟨hSame.map
        (fun t => { t with
          envelope := { t.envelope with
            recipients := addresses } })
        (fun _ => rfl) fun _ => rfl, hFiles⟩
  | dropMessage => exact ⟨hSame.withMessage none, hFiles⟩
  | deleteSpool => exact ⟨hSame, hFiles.drop hSame.path⟩
  | renameDirectory source target => exact hKeeps.elim
  | write content keepStamp =>
      exact ⟨hSame, hFiles.overwrite hSame.path _ _⟩

/- So does a module that follows a script. -/
theorem Module.treatsAlike_scripted
    (name : String)
    {actions : List Action}
    (hActions : ∀ action ∈ actions, action.KeepsDirectories)
    (value : Int)
    (settings : Settings) :
    (scripted name actions value).TreatsAlike settings := by
  intro a b t u files others hSame hFiles
  refine ⟨rfl, ?_⟩
  have hBoth :
      Both (Transaction.Alike a b) (Files.Alike a b) (t, files)
        (u, others) :=
    ⟨hSame, hFiles⟩
  change Both _ _ (actions.foldl _ (t, files))
    (actions.foldl _ (u, others))
  generalize (t, files) = state at hBoth
  generalize (u, others) = twin at hBoth
  induction actions generalizing state twin with
  | nil => exact hBoth
  | cons action rest ih =>
      rcases List.forall_mem_cons.mp hActions with
        ⟨hFirst, hRest⟩
      exact ih hRest _ _ (Action.alike_run hFirst hBoth)

------------------------------------------------------------
-- The Stages Of A Chain
------------------------------------------------------------

namespace Queue

/- The same addresses are asked about. -/
theorem alike_askAll
    (lookup : Lookup)
    (addresses : List String)
    (hSame : Transaction.Alike a b t u) :
    Run.Alike a b (Transaction.Alike a b)
      (askAll lookup addresses t) (askAll lookup addresses u) := by
  induction addresses generalizing t u with
  | nil => exact .pure hSame
  | cons address rest ih =>
      refine .bind (.record rfl) fun _ _ _ => ?_
      cases lookup address with
      | ok answer =>
          exact ih (hSame.map
            (fun t => { t with
              users := remember t.users address answer })
            (fun _ => rfl) fun _ => rfl)
      | error e =>
          exact .bind (.emit _ _) fun _ _ _ => ih hSame

theorem alike_fetchUsers
    (queue : Queue)
    (hSame : Transaction.Alike a b t u) :
    Run.Alike a b (Transaction.Alike a b) (queue.fetchUsers t)
      (queue.fetchUsers u) := by
  unfold fetchUsers
  rw [hSame.part unknownAddresses fun _ => rfl]
  exact alike_askAll _ _ hSame

/- The modules are stopped by the same value, or by none. -/
theorem TreatsAlike.runModules
    {queue : Queue}
    (hTreats : queue.TreatsAlike settings)
    (names : List String)
    {modules : List Module}
    (hModules : ∀ m ∈ modules, m.TreatsAlike settings)
    (hSame : Transaction.Alike a b t u) :
    Run.Alike a b (Both Eq (Both Eq (Transaction.Alike a b)))
      (queue.runModules settings names modules t)
      (queue.runModules settings names modules u) := by
  induction modules generalizing names t u with
  | nil => exact .pure ⟨rfl, rfl, hSame⟩
  | cons m rest ih =>
      rcases List.forall_mem_cons.mp hModules with
        ⟨hFirst, hRest⟩
      refine .bind (.emit _ _) fun _ _ _ => ?_
      refine .bind_both (hFirst.invoke hSame) ?_
      intro value left twin hLeft
      change Run.Alike a b _ (if value = 0 then _ else _)
        (if value = 0 then _ else _)
      by_cases hZero : value = 0
      · rw [if_pos hZero, if_pos hZero]
        exact ih _ hRest hLeft
      · rw [if_neg hZero, if_neg hZero]
        have hJudged := hTreats.policy.judge a b left twin value
          hLeft
        rcases hJudged.exists_eq with
          ⟨outcome, judged, judgedTwin, hEq, hEqTwin, hAfter⟩
        rw [hEq, hEqTwin]
        refine .bind (.record rfl) fun _ _ _ => ?_
        refine .bind (.emit _ _) fun _ _ _ => ?_
        exact .pure ⟨rfl, rfl, hAfter⟩

/- The same header is added, if any. -/
theorem alike_markModules
    (settings : Settings)
    (names : List String)
    (hSame : Transaction.Alike a b t u) :
    Transaction.Alike a b (markModules settings names t)
      (markModules settings names u) := by
  unfold markModules
  split
  · exact hSame.map
      (·.mapMessage
        (·.appendHeader traceHeader
          ("processed " ++ ",".intercalate names)))
      (fun _ => rfl) fun _ => rfl
  · exact hSame

end Queue

namespace Chain

theorem alike_replaceBlock
    (dir : String)
    {path other : Path}
    (hPath : Path.Alike a b path other)
    (block : Bytes)
    (bodyOffset : Nat) :
    Run.Alike a b (Agree Eq)
      (replaceBlock dir path block bodyOffset)
      (replaceBlock dir other block bodyOffset) := by
  refine .bind (Spool.alike_read hPath) ?_
  intro content twin hContent
  cases hContent with
  | error => exact .pure (.error _ _)
  | @ok raw _ hRaw =>
      subst hRaw
      exact Spool.alike_replace dir hPath _

/- The headers are written back on each side, or on none. -/
theorem alike_flush
    (before : Snapshot)
    (settings : Settings)
    (hSame : Transaction.Alike a b t u) :
    Run.Alike a b (Both (Agree Eq) (Transaction.Alike a b))
      (flush before settings t) (flush before settings u) := by
  unfold flush
  rw [hSame.message]
  cases u.message with
  | none => exact .pure ⟨.ok rfl, hSame⟩
  | some message =>
      dsimp only
      split
      · refine .bind (.emit _ _) fun _ _ _ => ?_
        refine .bind (alike_replaceBlock _ hSame.path _ _) ?_
        intro written twin hWritten
        cases hWritten with
        | error => exact .pure ⟨.error _ _, hSame⟩
        | ok =>
            exact .pure ⟨.ok rfl, hSame.withMessage _⟩
      · exact .bind (.emit _ _) fun _ _ _ =>
          .pure ⟨.ok rfl, hSame⟩

end Chain

namespace Nexthop

theorem alike_copyTo
    (hSame : Transaction.Alike a b t u)
    (name : String) :
    Run.Alike a b (Agree Eq) (copyTo t (.named name))
      (copyTo u (.named name)) := by
  refine .bind (.emit _ _) fun _ _ _ => ?_
  intro w v hWorld
  have hCopy := hWorld.files.copy hSame.path name
  simp only [Run.bind_apply, Run.get_apply]
  generalize w.files.copy t.envelope.messageFile (.named name) =
    result at hCopy
  generalize v.files.copy u.envelope.messageFile (.named name) =
    twin at hCopy
  cases hCopy with
  | error => exact ⟨.error _ _, hWorld⟩
  | ok hFiles => exact ⟨.ok rfl, hWorld.setFiles hFiles⟩

theorem alike_withRecipients
    (hSame : Transaction.Alike a b t u) :
    Transaction.Alike a b (withRecipients t)
      (withRecipients u) := by
  refine hSame.map withRecipients ?_ ?_
  · intro t
    unfold withRecipients
    change _ = Transaction.view (if t.envelope.recipients.isEmpty
      then _ else _)
    split <;> rfl
  · intro t
    unfold withRecipients
    split <;> rfl

/- A relay is sent the same, and answers the same. -/
theorem alike_talk
    (hSame : Transaction.Alike a b t u)
    (address : String)
    (script : List Bytes)
    (data : Bytes) :
    Run.Alike a b Eq (talk t address script data)
      (talk u address script data) := by
  refine .bind (.emit _ _) fun _ _ _ => ?_
  intro w v hWorld
  have hSender := hSame.part (·.envelope.sender) fun _ => rfl
  have hRecipients :=
    hSame.part (·.envelope.recipients) fun _ => rfl
  simp only [Run.bind_apply, Run.get_apply]
  rw [hSender, hRecipients, hWorld.machine]
  rcases Relay.run
      ⟨Relay.Scripted.transport, address⟩
      (Relay.Scripted.connect script) v.machine
      (u.envelope.sender.getD "") u.envelope.recipients data with
    ⟨result, client⟩
  exact ⟨rfl, { hWorld with
    transcripts := hWorld.transcripts.cons rfl }⟩

theorem alike_relayTo
    (hSame : Transaction.Alike a b t u)
    (host : String)
    (port : Nat) :
    Run.Alike a b (Agree Eq) (relayTo t host port)
      (relayTo u host port) := by
  intro w v hWorld
  have hRead := hWorld.files.read hSame.path
  simp only [relayTo, Run.bind_apply, Run.get_apply]
  generalize w.files.read t.envelope.messageFile = result
    at hRead
  generalize v.files.read u.envelope.messageFile = twin at hRead
  cases hRead with
  | error => exact ⟨.error _ _, hWorld⟩
  | @ok data _ hData =>
      subst hData
      dsimp only
      rw [hWorld.relays]
      cases v.network.relays.lookup (host, port) with
      | none => exact ⟨.error _ _, hWorld⟩
      | some script =>
          refine Run.Alike.bind (alike_talk hSame
            (render (.relay host port)) script data) ?_ w v hWorld
          intro result twin hResult
          subst hResult
          cases result with
          | ok => exact .pure (.ok rfl)
          | error => exact .pure (.error _ _)

/- What was found is delivered to on each side. -/
theorem alike_deliver
    {nexthop : Nexthop}
    {files : Files}
    (hFind : find? files settings = some nexthop)
    (hSame : Transaction.Alike a b t u) :
    Run.Alike a b (Both (Agree Eq) (Transaction.Alike a b))
      (nexthop.deliver t) (nexthop.deliver u) := by
  cases nexthop with
  | file path =>
      rcases exists_of_find?_file hFind with ⟨name, _, rfl⟩
      exact Run.Alike.bind (alike_copyTo hSame _)
        fun _ _ hResult => Run.Alike.pure ⟨hResult, hSame⟩
  | relay host port =>
      have hBoth := alike_withRecipients hSame
      exact Run.Alike.bind (alike_relayTo hBoth host port)
        fun _ _ hResult => Run.Alike.pure ⟨hResult, hBoth⟩

end Nexthop

namespace Queue.TreatsAlike

variable {queue : Queue}
variable (hTreats : queue.TreatsAlike settings)

include hTreats

/- The policy is told of a failure on each side, or on none. -/
theorem handOn
    (hSame : Transaction.Alike a b t u) :
    Run.Alike a b (Transaction.Alike a b)
      (queue.handOn settings t) (queue.handOn settings u) := by
  intro w v hWorld
  simp only [Queue.handOn, Run.bind_apply, Run.get_apply,
    hWorld.files.find?_nexthop settings]
  cases hFind : Nexthop.find? v.files settings with
  | none => exact ⟨hSame, hWorld⟩
  | some nexthop =>
      refine Run.Alike.bind
        (Nexthop.alike_deliver hFind hSame) ?_ w v hWorld
      rintro ⟨result, left⟩ ⟨other, twin⟩
        ⟨hResult, hLeft⟩
      cases hResult with
      | ok =>
          exact .bind (.emit _ _) fun _ _ _ => .pure hLeft
      | error e d =>
          refine .bind (.emit _ _) fun _ _ _ => ?_
          have hNote :
              (Note.undelivered e).view? =
                (Note.undelivered d).view? := rfl
          refine Run.Alike.bind (.record hNote) fun _ _ _ => ?_
          exact .pure
            (hTreats.policy.undelivered a b left twin e d hLeft)

theorem finish
    (before : Snapshot)
    (names : List String)
    (disposition : Disposition)
    (hSame : Transaction.Alike a b t u) :
    Run.Alike a b (Both (Agree Eq) (Transaction.Alike a b))
      (queue.finish settings before names disposition t)
      (queue.finish settings before names disposition u) := by
  refine .bind (Chain.alike_flush before settings
    (alike_markModules settings names hSame)) ?_
  rintro ⟨result, left⟩ ⟨other, twin⟩ ⟨hResult, hLeft⟩
  cases hResult with
  | error => exact .pure ⟨.error _ _, hLeft⟩
  | ok =>
      exact .bind (hTreats.handOn hLeft) fun _ _ hHanded =>
        .pure ⟨.ok rfl, hHanded⟩

/- The processing of a message ends alike. -/
theorem process
    (hSame : Transaction.Alike a b t u) :
    Run.Alike a b (Both (Agree Eq) (Transaction.Alike a b))
      (queue.process settings t) (queue.process settings u) := by
  unfold Queue.process
  rw [hSame.message]
  refine .bind (queue.alike_fetchUsers hSame) ?_
  intro fetched twin hFetched
  refine .bind_both
    (hTreats.runModules [] hTreats.modules hFetched) ?_
  rintro outcome ⟨names, left⟩ ⟨others, twin⟩ ⟨hNames, hLeft⟩
  dsimp only at hNames hLeft
  subst hNames
  cases outcome with
  | none => exact hTreats.finish _ _ _ hLeft
  | some outcome =>
      cases outcome with
      | abort => exact .pure ⟨.ok rfl, hLeft⟩
      | stopAccept => exact .pure ⟨.ok rfl, hLeft⟩
      | carryOn => exact hTreats.finish _ _ _ hLeft

end Queue.TreatsAlike

end MailFilter
