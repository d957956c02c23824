import MailFilter.Proofs.Chain.Flush
import MailFilter.Proofs.Message.Snapshot

/-
  What a chain delivers whose modules leave the message as it
  is.

  Such modules may change all but the message and its spool
  file. So the headers are not written back, and a file that
  the nexthop leads to gets what the spool file holds.

  Key definitions include:
    * `Files.SameNamed`
    * `Files.SendsTo`
    * `Module.IsPassive`
    * `Carries`

  Main statements:
    * `Spool.sameNamed_of_replace`
    * `Queue.exists_process_of_passive`
-/

namespace MailFilter

open World

/- A path in the spool. -/
def Path.IsSpooled : Path → Prop
  | .named _ => False
  | .spooled _ _ => True

------------------------------------------------------------
-- Files Outside The Spool
------------------------------------------------------------

namespace Files

/-
  All but the spool files is the same: files at paths that
  have a name, links, directories and devices.
-/
structure SameNamed
    (before after : Files) : Prop where
  named :
    ∀ name,
      after.file? (.named name) = before.file? (.named name)
  links : after.links = before.links
  directories : after.directories = before.directories
  devices : after.devices = before.devices

variable {files before between after : Files}
variable {path : Path}

namespace SameNamed

@[refl]
theorem refl
    (files : Files) :
    SameNamed files files :=
  ⟨fun _ => rfl, rfl, rfl, rfl⟩

theorem trans
    (hFirst : SameNamed before between)
    (hSecond : SameNamed between after) :
    SameNamed before after :=
  ⟨fun name => (hSecond.named name).trans (hFirst.named name),
    hSecond.links.trans hFirst.links,
    hSecond.directories.trans hFirst.directories,
    hSecond.devices.trans hFirst.devices⟩

/- A file in the spool is put there. -/
theorem put
    (hPath : path.IsSpooled)
    (files : Files)
    (file : File)
    (next : Nat) :
    SameNamed files
      { files.put path file with next := next } := by
  refine ⟨?_, rfl, rfl, rfl⟩
  intro name
  change (files.put path file).file? (.named name) = _
  rw [file?_put, if_neg]
  rintro rfl
  exact hPath

theorem drop
    (hPath : path.IsSpooled)
    (files : Files) :
    SameNamed files (files.drop path) := by
  refine ⟨?_, rfl, rfl, rfl⟩
  intro name
  rw [file?_drop, if_neg]
  rintro rfl
  exact hPath

theorem create
    {dir : String}
    (hCreate : files.create dir = .ok (path, after)) :
    path.IsSpooled ∧ SameNamed files after := by
  unfold Files.create at hCreate
  dsimp only at hCreate
  split at hCreate
  · cases hCreate
  · split at hCreate
    · cases hCreate
      have hSpooled :
          (Path.spooled dir files.next).IsSpooled := trivial
      exact ⟨hSpooled, put hSpooled _ _ _⟩
    · cases hCreate

theorem write
    (hPath : path.IsSpooled)
    {content : Bytes}
    (hWrite : files.write path content = .ok after) :
    SameNamed files after := by
  unfold Files.write at hWrite
  split at hWrite
  · split at hWrite
    · cases hWrite
      rfl
    · cases hWrite
  · split at hWrite
    · cases hWrite
      rfl
    · cases hWrite
      exact put hPath _ _ _

theorem rename
    {source : Path}
    (hSource : source.IsSpooled)
    (hPath : path.IsSpooled)
    (hRename : files.rename source path = .ok after) :
    SameNamed files after := by
  unfold Files.rename at hRename
  split at hRename
  · cases hRename
  · split at hRename
    · cases hRename
    · cases hRename
      exact (drop hSource files).trans (put hPath _ _ _)

/- The same files have the same content. -/
theorem content?
    (hSame : SameNamed before after)
    (name : String) :
    after.content? (.named name) =
      before.content? (.named name) := by
  unfold Files.content?
  rw [hSame.named name]

end SameNamed

/-
  The nexthop is a file, and `name` is where it leads. It is
  neither a directory nor a device that holds nothing.
-/
structure SendsTo
    (files : Files)
    (settings : Settings)
    (name : String) : Prop where
  found :
    ∃ target,
      Nexthop.find? files settings = some (.file target) ∧
        files.resolve target = .named name
  directory : files.hasDirectory (.named name) = false
  device : files.devices.contains (.named name) = false

/- Where a nexthop leads is not up to the spool. -/
theorem SendsTo.congr
    {settings : Settings}
    {name : String}
    (hSends : before.SendsTo settings name)
    (hSame : SameNamed before after) :
    after.SendsTo settings name := by
  rcases hSends.found with ⟨target, hFind, hResolve⟩
  have hOther :
      ∀ value, after.hasOther (.named value) =
        before.hasOther (.named value) := by
    intro value
    unfold hasOther
    rw [hSame.named value, hSame.links, hSame.devices]
  have hParse :
      ∀ value, Nexthop.parse after value =
        Nexthop.parse before value := by
    intro value
    unfold Nexthop.parse
    rw [hOther value]
  refine ⟨⟨target, ?_, ?_⟩, ?_, ?_⟩
  · rw [← hFind]
    unfold Nexthop.find?
    simp only [hParse]
  · rw [← hResolve]
    unfold resolve
    rw [hSame.links]
  · rw [← hSends.directory]
    unfold hasDirectory
    rw [hSame.directories]
  · rw [hSame.devices]
    exact hSends.device

/- A file is copied to where the nexthop leads. -/
theorem SendsTo.exists_copy
    {settings : Settings}
    {name : String}
    (hSends : files.SendsTo settings name)
    (hReliable : files.IsReliable)
    {source : Path}
    {content : Bytes}
    (hContent : files.content? source = some content) :
    ∃ target after,
      Nexthop.find? files settings = some (.file target) ∧
        files.copy source target = .ok after ∧
        after.content? (.named name) = some content := by
  rcases hSends.found with ⟨target, hFind, hResolve⟩
  have hRead := read_of_content? (hReliable _ _) hContent
  refine ⟨target, ?_⟩
  simp only [copy, hRead, hResolve, hSends.directory,
    hSends.device, Bool.false_eq_true, if_false]
  refine ⟨_, hFind, rfl, ?_⟩
  change ((files.put _ _).file? _).map _ = _
  rw [file?_put, if_pos rfl]
  rfl

end Files

/- Replacing a spool file concerns the spool only. -/
theorem Spool.sameNamed_of_replace
    {w after : World}
    {dir : String}
    {path : Path}
    (hPath : path.IsSpooled)
    {parts : List Bytes}
    (hReplace : replace dir path parts w = (.ok (), after)) :
    Files.SameNamed w.files after.files := by
  rcases exists_exit dir path parts w with
    ⟨result, files, hExits, hExit⟩
  cases hReplace.symm.trans hExits
  cases hExit with
  | replaced create write sync remove rename =>
      rcases Files.SameNamed.create create with ⟨hFresh, hMade⟩
      have hFilled := hMade.trans (.write hFresh write)
      have hRemoved := hFilled.trans (.drop hPath _)
      exact hRemoved.trans (.rename hFresh hPath rename)

/- Removing one does so too. -/
theorem Spool.sameNamed_remove
    {path : Path}
    (hPath : path.IsSpooled)
    (w : World) :
    Files.SameNamed w.files (remove path w).2.files := by
  unfold remove
  cases hRemove : w.files.remove path with
  | ok files =>
      change Files.SameNamed w.files files
      rw [eq_drop_of_remove hRemove]
      exact .drop hPath _
  | error fault => exact .refl _

------------------------------------------------------------
-- Passive Modules
------------------------------------------------------------

/-
  A module that returns zero and leaves the message and its
  spool file as they are. It may change anything else, as long
  as the disk stays reliable and the nexthop leads to the file
  that it led to.
-/
structure Module.IsPassive
    (m : Module)
    (settings : Settings)
    (name : String) : Prop where
  value :
    ∀ t files, (m.run settings t files).1 = 0
  message :
    ∀ t files, (m.run settings t files).2.1.message = t.message
  path :
    ∀ t files,
      (m.run settings t files).2.1.envelope.messageFile =
        t.envelope.messageFile
  content :
    ∀ t files,
      (m.run settings t files).2.2.content?
          t.envelope.messageFile =
        files.content? t.envelope.messageFile
  reliable :
    ∀ t files, files.IsReliable →
      (m.run settings t files).2.2.IsReliable
  sends :
    ∀ t files, files.SendsTo settings name →
      (m.run settings t files).2.2.SendsTo settings name

/-
  A transaction carries a message that its spool file reads
  as, and the message can be copied to where the nexthop
  leads.
-/
structure Carries
    (settings : Settings)
    (name : String)
    (raw : Bytes)
    (message : Message)
    (t : Transaction)
    (files : Files) : Prop where
  message : t.message = some message
  content :
    files.content? t.envelope.messageFile = some raw
  reliable : files.IsReliable
  sends : files.SendsTo settings name

section

variable {settings : Settings}
variable {name : String}
variable {raw : Bytes}
variable {message : Message}

/- A passive module leaves the message to be carried on. -/
theorem Module.IsPassive.exists_invoke
    {m : Module}
    (hPassive : m.IsPassive settings name)
    (hParse : Message.parse raw = .ok message)
    {t : Transaction}
    {w : World}
    (hCarries : Carries settings name raw message t w.files) :
    ∃ after left,
      m.invoke settings t w = ((0, after), left) ∧
        Carries settings name raw message after left.files ∧
        after.envelope.messageFile =
          t.envelope.messageFile := by
  have hValue := hPassive.value t w.files
  have hMessage := hPassive.message t w.files
  have hPath := hPassive.path t w.files
  have hContent := hPassive.content t w.files
  have hReliable := hPassive.reliable t w.files hCarries.reliable
  have hSends := hPassive.sends t w.files hCarries.sends
  rcases hRun : m.run settings t w.files with
    ⟨value, left, files⟩
  rw [hRun] at hValue hMessage hPath hContent hReliable hSends
  dsimp only at hValue hMessage hPath hContent hReliable hSends
  subst hValue
  rw [hCarries.message] at hMessage
  rw [hCarries.content] at hContent
  have hKept : Carries settings name raw message left files :=
    ⟨hMessage, by rw [hPath]; exact hContent, hReliable, hSends⟩
  have hRead :=
    Files.read_of_content? (hReliable _ _) hContent
  simp only [Module.invoke, Run.bind_apply, Run.get_apply,
    setFiles_apply, hRun]
  split
  · -- The file was touched, and reads as what it was.
    simp only [reload, Run.bind_apply, Spool.load_apply,
      files_say, hRead, hParse]
    exact ⟨_, _, rfl,
      ⟨rfl, hKept.content, hReliable, hSends⟩, hPath⟩
  · exact ⟨_, _, rfl, hKept, hPath⟩

/- So do several ones in a row. -/
theorem Queue.exists_runModules_of_passive
    (queue : Queue)
    {modules : List Module}
    (hModules :
      ∀ m ∈ modules, m.IsPassive settings name)
    (hParse : Message.parse raw = .ok message)
    (names : List String)
    {t : Transaction}
    {w : World}
    (hCarries : Carries settings name raw message t w.files) :
    ∃ ran after left,
      queue.runModules settings names modules t w =
          ((none, ran, after), left) ∧
        Carries settings name raw message after left.files ∧
        after.envelope.messageFile =
          t.envelope.messageFile := by
  induction modules generalizing names t w with
  | nil => exact ⟨_, _, _, rfl, hCarries, rfl⟩
  | cons m rest ih =>
      rcases List.forall_mem_cons.mp hModules with
        ⟨hFirst, hRest⟩
      rcases hFirst.exists_invoke hParse
          (w := (sayOf .debug t
            ("Invoking module " ++ m.label) w).2)
          hCarries with
        ⟨after, left, hInvoke, hKept, hPath⟩
      rcases ih hRest (m.name :: names) hKept with
        ⟨ran, last, final, hRun, hLast, hSame⟩
      refine ⟨ran, last, final, ?_, hLast, hSame.trans hPath⟩
      simp only [runModules, Run.bind_apply, hInvoke]
      exact hRun

------------------------------------------------------------
-- The Whole Chain
------------------------------------------------------------

/- A message that is carried is copied to the nexthop. -/
theorem Queue.exists_handOn
    (queue : Queue)
    {t : Transaction}
    {w : World}
    (hCarries : Carries settings name raw message t w.files) :
    ∃ after,
      queue.handOn settings t w = (t, after) ∧
        after.files.content? (.named name) = some raw := by
  rcases hCarries.sends.exists_copy hCarries.reliable
      hCarries.content with
    ⟨target, files, hFind, hCopy, hContent⟩
  simp only [handOn, Run.bind_apply, Run.get_apply, hFind,
    Nexthop.deliver, Nexthop.copyTo, files_say, hCopy]
  exact ⟨_, rfl, hContent⟩

/-
  A chain of passive modules takes the message to the nexthop
  as it is.
-/
theorem Queue.exists_process_of_passive
    {queue : Queue}
    (hModules :
      ∀ m ∈ queue.modules, m.IsPassive settings name)
    (hHeader : settings.global.addHeader = false)
    (hParse : Message.parse raw = .ok message)
    {t : Transaction}
    {w : World}
    (hCarries : Carries settings name raw message t w.files) :
    ∃ after left,
      queue.process settings t w =
          ((.ok .completed, after), left) ∧
        left.files.content? (.named name) = some raw := by
  rcases queue.fetchUsers_apply t w with ⟨hFetch, hFiles⟩
  have hFetched :
      Carries settings name raw message (queue.fetchUsers t w).1
        (queue.fetchUsers t w).2.files := by
    rw [hFiles]
    refine ⟨?_, ?_, hCarries.reliable, hCarries.sends⟩
    · rw [Transaction.message, hFetch]
      exact hCarries.message
    · rw [hFetch]
      exact hCarries.content
  rcases queue.exists_runModules_of_passive hModules hParse []
      hFetched with
    ⟨ran, left, between, hRun, hLeft, _⟩
  have hMarked : markModules settings ran left = left := by
    rw [markModules, hHeader]
    rfl
  have hClean :
      ∀ other, left.message = some other →
        (Snapshot.take (some message)).isDirty
          (.take (some other)) = false := by
    intro other hOther
    cases hLeft.message.symm.trans hOther
    exact (Snapshot.isDirty_take_eq_false_iff _ _).mpr (.refl _)
  rcases Chain.exists_flush_of_clean settings hClean
      between with
    ⟨flushed, hFlush, hSame⟩
  rw [← hSame] at hLeft
  rcases queue.exists_handOn hLeft with
    ⟨after, hHandOn, hContent⟩
  refine ⟨left, after, ?_, hContent⟩
  simp only [process, Run.bind_apply, hRun, finish, hMarked,
    hCarries.message, hFlush, hHandOn]
  rfl

end

end MailFilter
