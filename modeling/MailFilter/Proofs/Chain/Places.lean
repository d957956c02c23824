import MailFilter.Chain.Script
import MailFilter.Proofs.Chain.Course
import MailFilter.Proofs.Chain.Flush
import MailFilter.Proofs.Chain.Passage
import MailFilter.Proofs.Spool.Places

/-
  Which files there are when a message has passed through a
  chain.

  The chain itself makes no file but temporary ones, which are
  gone afterwards, and a copy where a nexthop leads to. So no
  place changes but that of the spool file, that of the copy,
  and those that the modules make files at.

  Key definitions include:
    * `Module.KeepsPlaces`
    * `Policy.KeepsPath`
    * `Settings.IsDestination`

  Main statements:
    * `Queue.Step.Takes.samePlaces`
    * `Queue.samePlaces_process`
-/

namespace MailFilter

open World

/-
  A module that makes, moves and deletes no files, apart from
  files at paths of its own, and leaves the message where it
  is kept.
-/
structure Module.KeepsPlaces
    (m : Module)
    (settings : Settings)
    (own : Path → Prop) : Prop where
  path :
    ∀ t files,
      (m.run settings t files).2.1.envelope.messageFile =
        t.envelope.messageFile
  places :
    ∀ t files,
      Files.SamePlaces own files (m.run settings t files).2.2

/- An action that neither deletes nor moves any file. -/
def Action.KeepsFiles : Action → Prop
  | .deleteSpool => False
  | .renameDirectory _ _ => False
  | _ => True

/- A module that only carries out such actions. -/
theorem Module.Follows.keepsPlaces
    {m : Module}
    (hFollows : m.Follows Action.KeepsFiles)
    (settings : Settings)
    (own : Path → Prop) :
    m.KeepsPlaces settings own := by
  have hKeeps :
      ∀ t files,
        (m.run settings t files).2.1.envelope.messageFile =
            t.envelope.messageFile ∧
          Files.SamePlaces own files
            (m.run settings t files).2.2 := by
    intro t files
    refine hFollows.keeps
      (fun s =>
        s.1.envelope.messageFile = t.envelope.messageFile ∧
          Files.SamePlaces own files s.2)
      ?_ settings ⟨rfl, .refl _ _⟩
    rintro action hAction ⟨now, current⟩ ⟨hFile, hSame⟩
    cases action with
    | deleteSpool => exact hAction.elim
    | renameDirectory source target => exact hAction.elim
    | write content keepStamp =>
        exact ⟨hFile,
          hSame.trans (.overwrite current _ content keepStamp)⟩
    | edit change => exact ⟨hFile, hSame⟩
    | responseMsg text => exact ⟨hFile, hSame⟩
    | reply code text => exact ⟨hFile, hSame⟩
    | sender address => exact ⟨hFile, hSame⟩
    | recipients addresses => exact ⟨hFile, hSame⟩
    | dropMessage => exact ⟨hFile, hSame⟩
  exact ⟨fun t files => (hKeeps t files).1,
    fun t files => (hKeeps t files).2⟩

/- A policy that leaves the message where it is kept. -/
structure Policy.KeepsPath
    (policy : Policy) : Prop where
  judge :
    ∀ settings t value,
      (policy.judge settings t value).2.envelope.messageFile =
        t.envelope.messageFile
  undelivered :
    ∀ settings t e,
      (policy.undelivered settings t e).envelope.messageFile =
        t.envelope.messageFile

theorem Policy.KeepsMessage.keepsPath
    {policy : Policy}
    (hPolicy : policy.KeepsMessage) :
    policy.KeepsPath :=
  ⟨fun settings t value => (hPolicy.judge settings t value).2,
    fun settings t e => (hPolicy.undelivered settings t e).2⟩

/- There is no file yet where the nexthop leads to. -/
def Settings.IsDestination
    (settings : Settings)
    (files : Files)
    (path : Path) : Prop :=
  ∃ value,
    settings.global.nexthop = some value ∧
      path = files.resolve (.named (Text.trim value)) ∧
      files.file? path = none

------------------------------------------------------------
-- Parts Of A Course
------------------------------------------------------------

/- What a module leaves, it leaves after a reload too. -/
theorem Module.path_pass
    (m : Module)
    (settings : Settings)
    (s : Stage) :
    (m.pass settings s).2.path =
        (m.run settings s.transaction
            s.files).2.1.envelope.messageFile ∧
      (m.pass settings s).2.files =
        (m.run settings s.transaction s.files).2.2 := by
  unfold pass Stage.reload
  dsimp only
  split
  · split <;> exact ⟨rfl, rfl⟩
  · exact ⟨rfl, rfl⟩

/- Writing headers back concerns the spool file only. -/
theorem Chain.Exit.samePlaces
    {skip : Path → Prop}
    {before : Snapshot}
    {settings : Settings}
    {t flushed : Transaction}
    {files after : Files}
    {result : Except SpoolError Bool}
    (hExit : Exit before settings t files result flushed after)
    (hSkip : skip t.envelope.messageFile)
    (hFresh : files.IsFresh skip)
    (hRemoval : files.LetsRemove) :
    flushed.envelope.messageFile = t.envelope.messageFile ∧
      Files.SamePlaces skip files after := by
  cases hExit with
  | unchanged clean => exact ⟨rfl, .refl _ _⟩
  | notRead attached dirty read => exact ⟨rfl, .refl _ _⟩
  | notReplaced attached dirty read exit =>
      exact ⟨rfl, exit.samePlaces hSkip hFresh hRemoval⟩
  | written attached dirty read exit =>
      exact ⟨rfl, exit.samePlaces hSkip hFresh hRemoval⟩

/- A file that a nexthop is, is named by the settings. -/
theorem Nexthop.exists_of_find?_file
    {files : Files}
    {settings : Settings}
    {target : Path}
    (hFind : find? files settings = some (.file target)) :
    ∃ value,
      settings.global.nexthop = some value ∧
        target = .named (Text.trim value) := by
  unfold find? at hFind
  split at hFind
  · cases hFind
  · rename_i value hValue
    refine ⟨value, hValue, ?_⟩
    dsimp only [parse] at hFind
    split at hFind
    · cases hFind
    · split at hFind <;> cases hFind
      rfl

------------------------------------------------------------
-- The Whole Course
------------------------------------------------------------

namespace Queue

/-
  What a chain needs so that only the skipped paths come to
  lead elsewhere: its modules and its nexthop make files at
  skipped paths only, and temporary files are made under new
  names and can be removed.
-/
structure Spares
    (queue : Queue)
    (settings : Settings)
    (skip : Path → Prop)
    (files : Files) : Prop where
  modules : ∀ m ∈ queue.modules, m.KeepsPlaces settings skip
  policy : queue.policy.KeepsPath
  destination :
    ∀ path, settings.IsDestination files path → skip path
  fresh : files.IsFresh skip
  removal : files.LetsRemove

variable {queue : Queue}
variable {settings : Settings}
variable {skip : Path → Prop}
variable {base : Files}

theorem Spares.mono
    (hSpares : queue.Spares settings skip base)
    {more : Path → Prop}
    (hMore : ∀ path, skip path → more path) :
    queue.Spares settings more base where
  modules := fun m hMem =>
    { path := (hSpares.modules m hMem).path
      places := fun t files =>
        ((hSpares.modules m hMem).places t files).mono hMore }
  policy := hSpares.policy
  destination := fun path hPath =>
    hMore path (hSpares.destination path hPath)
  fresh := hSpares.fresh.mono hMore
  removal := hSpares.removal

/- A delivery makes a file where the nexthop leads to. -/
theorem samePlaces_deliver
    (hSpares : queue.Spares settings skip base)
    {w : World}
    (hSame : Files.SamePlaces skip base w.files)
    {nexthop : Nexthop}
    (hFind : Nexthop.find? w.files settings = some nexthop)
    (t : Transaction) :
    Files.SamePlaces skip w.files
      (nexthop.deliver t w).2.files := by
  cases nexthop with
  | relay host port =>
      have hFiles :=
        Nexthop.files_relayTo (Nexthop.withRecipients t) host
          port w
      simp only [Nexthop.deliver, Run.bind_apply,
        Run.pure_apply, hFiles]
      rfl
  | file target =>
      simp only [Nexthop.deliver, Nexthop.copyTo, Run.bind_apply,
        Run.pure_apply, Run.get_apply, files_say]
      cases hCopy :
          w.files.copy t.envelope.messageFile target with
      | error fault => rfl
      | ok files =>
          refine Files.SamePlaces.copy hCopy ?_
          intro hTarget
          -- The settings lead to the target now, so they did.
          rcases Nexthop.exists_of_find?_file hFind with
            ⟨value, hValue, rfl⟩
          have hLinks :=
            hSame.resolve (.named (Text.trim value))
          rw [hSame.present _ hTarget]
          cases hNone :
              base.file?
                (w.files.resolve (.named (Text.trim value))) with
          | some file => rfl
          | none =>
              apply absurd (hSpares.destination _ _) hTarget
              exact ⟨value, hValue, hLinks, hNone⟩

/-
  Every step leaves the message where it is kept and all
  other paths leading where they did.
-/
theorem Step.Takes.samePlaces
    (hSpares : queue.Spares settings skip base)
    {path : Path}
    (hPath : skip path)
    {before : Snapshot}
    {step : Step}
    {s s' : Transaction × World}
    (hTakes : Takes queue settings before step s s')
    (hFile : s.1.envelope.messageFile = path)
    (hSame : Files.SamePlaces skip base s.2.files) :
    s'.1.envelope.messageFile = path ∧
      Files.SamePlaces skip base s'.2.files := by
  cases hTakes with
  | fetched t w =>
      rcases queue.fetchUsers_apply t w with
        ⟨hEnvelope, hFiles⟩
      refine ⟨?_, ?_⟩
      · rw [hEnvelope]
        exact hFile
      · rw [hFiles]
        exact hSame
  | @invoked m value t after w w' hMem hInvoke =>
      rcases m.invoke_apply settings ⟨t, w.files, [], []⟩
          (w := w) rfl with
        ⟨ended, hApply, hFiles⟩
      rw [hInvoke] at hApply
      cases hApply
      rcases m.path_pass settings ⟨t, w.files, [], []⟩ with
        ⟨hPass, hPassed⟩
      have hKeeps := hSpares.modules m hMem
      refine ⟨?_, ?_⟩
      · exact hPass.trans ((hKeeps.path t w.files).trans hFile)
      · rw [hFiles, hPassed]
        exact hSame.trans (hKeeps.places t w.files)
  | @judged value outcome t after w hJudge =>
      refine ⟨?_, hSame⟩
      have hJudged := hSpares.policy.judge settings t value
      rw [hJudge] at hJudged
      exact hJudged.trans hFile
  | marked names t w => exact ⟨hFile, hSame⟩
  | @flushed result t after w w' hFlush =>
      rcases Chain.exists_exit before settings t w with
        ⟨other, flushed, final, hExits, hExit⟩
      cases hFlush.symm.trans hExits
      rcases hExit.samePlaces (by rw [hFile]; exact hPath)
          (hSame.isFresh hSpares.fresh)
          (hSame.removal hSpares.removal) with
        ⟨hKept, hPlaces⟩
      exact ⟨hKept.trans hFile, hSame.trans hPlaces⟩
  | @delivered nexthop result t after w w' hFind hDeliver =>
      have hKept := (nexthop.deliver_apply t w).2.1
      have hPlaces := samePlaces_deliver hSpares hSame hFind t
      rw [hDeliver] at hKept hPlaces
      exact ⟨hKept.trans hFile, hSame.trans hPlaces⟩
  | told e t w =>
      exact
        ⟨(hSpares.policy.undelivered settings t e).trans hFile,
          hSame⟩

/- So does the whole course of a message. -/
theorem samePlaces_process
    (hSpares : queue.Spares settings skip base)
    {t : Transaction}
    {w : World}
    (hPath : skip t.envelope.messageFile)
    (hSame : Files.SamePlaces skip base w.files) :
    (queue.process settings t w).1.2.envelope.messageFile =
        t.envelope.messageFile ∧
      Files.SamePlaces skip base
        (queue.process settings t w).2.files := by
  rcases queue.exists_performs settings t w with
    ⟨calls, verdicts, finish, -, hPerforms⟩
  exact hPerforms.keeps
    (fun s =>
      s.1.envelope.messageFile = t.envelope.messageFile ∧
        Files.SamePlaces skip base s.2.files)
    (fun t w event hInv => hInv)
    (fun step s s' hTakes hInv =>
      hTakes.samePlaces hSpares hPath hInv.1 hInv.2)
    ⟨rfl, hSame⟩

end Queue

end MailFilter
