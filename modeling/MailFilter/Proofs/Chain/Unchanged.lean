import MailFilter.Proofs.Chain.Agreement
import MailFilter.Proofs.Chain.Answered
import MailFilter.Proofs.Chain.Flush
import MailFilter.Proofs.Message.Snapshot

/-
  Headers are written back exactly if they are others.

  Two messages have the same headers if they have the same
  values under the same names, as often, in any order and with
  the names in any case. A message that is missing has none.
  A snapshot of one is still good for the other exactly then,
  and then writing headers back does nothing to the disk. So a
  chain whose modules make no change on the whole leaves the
  files as the modules left them, but for a copy it hands on.

  Key definitions include:
    * `Message.SameHeaders`
    * `Message.IsRearranged`
    * `Run.IsOffDisk`

  Main statements:
    * `Snapshot.isDirty_eq_false_iff`
    * `Chain.isOffDisk_flush_iff`
    * `Queue.file?_process_of_sameHeaders`
    * `Queue.rewrites_iff_changed`
-/

namespace MailFilter

open World

------------------------------------------------------------
-- The Same Headers
------------------------------------------------------------

namespace Message

/- The same names, up to case, and values, in any order. -/
def SameHeaders
    (before after : Option Message) : Prop :=
  (before.getD {}).entries.Perm (after.getD {}).entries

/-
  The headers are in another order, and their names in another
  case.
-/
def IsRearranged
    (first second : Message) : Prop :=
  ∃ headers,
    first.headers.Perm headers ∧
      List.Forall₂
        (fun header other =>
          Text.sameName header.name other.name ∧
            header.value = other.value)
        headers second.headers

theorem IsRearranged.sameHeaders
    {first second : Message}
    (hRearranged : first.IsRearranged second) :
    SameHeaders (some first) (some second) := by
  rcases hRearranged with ⟨headers, hPerm, hRecased⟩
  have hEntries :
      headers.map
          (fun header => (Text.lower header.name, header.value)) =
        second.entries := by
    clear hPerm
    unfold entries
    generalize second.headers = others at hRecased
    induction hRecased with
    | nil => rfl
    | cons hSame _ ih =>
        rcases hSame with ⟨hName, hValue⟩
        rw [Text.sameName, beq_iff_eq] at hName
        rw [List.map_cons, List.map_cons, hName, hValue, ih]
  have hPermuted : first.entries.Perm second.entries := by
    rw [← hEntries]
    exact hPerm.map _
  exact hPermuted

end Message

open Message (SameHeaders)

namespace Snapshot

/- No message counts as one without headers. -/
theorem take_eq_take_getD
    (message : Option Message) :
    take message = take (some (message.getD {})) := by
  cases message <;> rfl

theorem isDirty_eq_false_iff
    (before after : Option Message) :
    (take before).isDirty (take after) = false ↔
      SameHeaders before after := by
  rw [take_eq_take_getD before, take_eq_take_getD after]
  exact isDirty_take_eq_false_iff _ _

/- Messages with the same headers cannot be told apart. -/
theorem isDirty_congr
    {first second : Option Message}
    (hSame : SameHeaders first second)
    (other : Option Message) :
    (take first).isDirty (take other) =
        (take second).isDirty (take other) ∧
      (take other).isDirty (take first) =
        (take other).isDirty (take second) := by
  have hBool :
      ∀ a b : Bool, (a = false ↔ b = false) → a = b := by
    decide
  refine ⟨hBool _ _ ?_, hBool _ _ ?_⟩
  · rw [isDirty_eq_false_iff, isDirty_eq_false_iff]
    exact ⟨hSame.symm.trans, hSame.trans⟩
  · rw [isDirty_eq_false_iff, isDirty_eq_false_iff]
    exact ⟨fun hOther => hOther.trans hSame,
      fun hOther => hOther.trans hSame.symm⟩

end Snapshot

------------------------------------------------------------
-- Writing Headers Back
------------------------------------------------------------

/- A run that neither depends on the files nor changes them. -/
def Run.IsOffDisk
    {α : Type}
    (run : Run α) : Prop :=
  ∀ w files,
    run { w with files := files } =
      ((run w).1, { (run w).2 with files := files })

namespace Chain

variable {before : Snapshot}
variable {t : Transaction}
variable {message : Message}

/- The result if the headers are others. -/
theorem flush_of_dirty
    (hMessage : t.message = some message)
    (hDirty : before.isDirty (.take (some message)) = true)
    (settings : Settings)
    (w : World) :
    (flush before settings t w).1.1 ≠ .ok false ∧
      ∀ fault,
        w.files.read t.envelope.messageFile = .error fault →
        (flush before settings t w).1.1 =
          .error ⟨.read, t.envelope.messageFile, fault⟩ := by
  rcases exists_exit before settings t w with
    ⟨result, flushed, after, hFlush, hExit⟩
  rw [hFlush]
  generalize after.files = files at hExit
  cases hExit with
  | unchanged clean =>
      rw [clean message hMessage] at hDirty
      cases hDirty
  | notRead attached dirty read =>
      refine ⟨nofun, ?_⟩
      intro fault hRead
      cases read.symm.trans hRead
      rfl
  | notReplaced attached dirty read exit =>
      refine ⟨nofun, ?_⟩
      intro fault hRead
      cases read.symm.trans hRead
  | written attached dirty read exit =>
      refine ⟨nofun, ?_⟩
      intro fault hRead
      cases read.symm.trans hRead

/-
  Writing headers back leaves the disk alone exactly if they
  are those of the snapshot. If not, what comes of it depends
  on why a file cannot be read.
-/
theorem isOffDisk_flush_iff
    (hMessage : t.message = some message)
    (settings : Settings) :
    (flush before settings t).IsOffDisk ↔
      before.isDirty (.take (some message)) = false := by
  constructor
  · intro hOff
    by_contra hClean
    have hDirty := Bool.eq_true_of_not_eq_false hClean
    let bare : Files := {}
    let refusing : Files :=
      { refusal := fun _ _ => some .badDescriptor }
    have hBare :=
      (flush_of_dirty hMessage hDirty settings
        { World.holding [] with files := bare }).2 .noSuchFile rfl
    have hRefusing :=
      (flush_of_dirty hMessage hDirty settings
        { World.holding [] with files := refusing }).2
        .badDescriptor rfl
    rw [hOff] at hBare hRefusing
    cases hBare.symm.trans hRefusing
  · intro hClean w files
    unfold flush
    simp only [hMessage, hClean]
    rfl

/- It gives that nothing was written exactly in that case. -/
theorem flush_eq_false_iff
    (hMessage : t.message = some message)
    (settings : Settings)
    (w : World) :
    (flush before settings t w).1.1 = .ok false ↔
      before.isDirty (.take (some message)) = false := by
  constructor
  · intro hResult
    by_contra hClean
    have hDirty := Bool.eq_true_of_not_eq_false hClean
    exact (flush_of_dirty hMessage hDirty settings w).1 hResult
  · intro hClean
    unfold flush
    simp only [hMessage, hClean]
    rfl

end Chain

------------------------------------------------------------
-- Chains That Change Nothing
------------------------------------------------------------

/- A copy changes nothing but where it is made. -/
theorem Files.file?_of_copy
    {files after : Files}
    {source target path : Path}
    (hCopy : files.copy source target = .ok after)
    (hPath : path ≠ files.resolve target) :
    after.file? path = files.file? path := by
  unfold Files.copy at hCopy
  split at hCopy
  · cases hCopy
  · dsimp only at hCopy
    split at hCopy
    · cases hCopy
    · split at hCopy
      · cases hCopy
        rfl
      · cases hCopy
        change (files.put _ _).file? path = _
        rw [Files.file?_put, if_neg hPath]

/- A delivery changes nothing but the file that it leads to. -/
theorem Nexthop.file?_deliver
    (nexthop : Nexthop)
    (t : Transaction)
    (w : World)
    {path : Path}
    (hPath :
      ∀ target, nexthop = .file target →
        path ≠ w.files.resolve target) :
    (nexthop.deliver t w).2.files.file? path =
      w.files.file? path := by
  cases nexthop with
  | relay host port =>
      have hFiles := files_relayTo (withRecipients t) host port w
      simp only [deliver, Run.bind_apply, Run.pure_apply, hFiles]
  | file target =>
      simp only [deliver, copyTo, Run.bind_apply, Run.pure_apply,
        Run.get_apply, files_say]
      cases hCopy :
          w.files.copy t.envelope.messageFile target with
      | error fault => rfl
      | ok files =>
          exact Files.file?_of_copy hCopy (hPath target rfl)

namespace Queue

variable {queue : Queue}
variable {settings : Settings}

/- The path is not where the nexthop leads to. -/
def IsElsewhere
    (settings : Settings)
    (files : Files)
    (path : Path) : Prop :=
  ∀ target,
    Nexthop.find? files settings = some (.file target) →
      path ≠ files.resolve target

/- Handing a message on makes a copy at most. -/
theorem file?_handOn
    (queue : Queue)
    (t : Transaction)
    (w : World)
    {path : Path}
    (hPath : IsElsewhere settings w.files path) :
    (queue.handOn settings t w).2.files.file? path =
      w.files.file? path := by
  simp only [handOn, Run.bind_apply, Run.get_apply]
  cases hFind : Nexthop.find? w.files settings with
  | none => rfl
  | some nexthop =>
      have hDelivered :
          (nexthop.deliver t w).2.files.file? path =
            w.files.file? path :=
        nexthop.file?_deliver t w
          fun target hTarget => hPath target (hTarget ▸ hFind)
      simp only [Run.bind_apply]
      cases (nexthop.deliver t w).1.1 with
      | ok done => exact hDelivered
      | error e => exact hDelivered

/- A message whose headers are the same is handed on as it is. -/
theorem file?_finish_of_sameHeaders
    (hHeader : settings.global.addHeader = false)
    {before : Option Message}
    {t : Transaction}
    (hSame : SameHeaders before t.message)
    (names : List String)
    (disposition : Disposition)
    (w : World) :
    (queue.finish settings (.take before) names disposition t
        w).1.1 = .ok disposition ∧
      ∀ path, IsElsewhere settings w.files path →
        (queue.finish settings (.take before) names disposition
            t w).2.files.file? path =
          w.files.file? path := by
  have hMarked : markModules settings names t = t := by
    rw [markModules, hHeader]
    rfl
  have hClean :
      ∀ message, t.message = some message →
        (Snapshot.take before).isDirty (.take (some message)) =
          false := by
    intro message hMessage
    rw [hMessage] at hSame
    exact (Snapshot.isDirty_eq_false_iff _ _).mpr hSame
  rcases Chain.exists_flush_of_clean settings hClean w with
    ⟨between, hFlush, hFiles⟩
  have hFinish :
      queue.finish settings (.take before) names disposition t w =
        ((.ok disposition, (queue.handOn settings t between).1),
            (queue.handOn settings t between).2) := by
    simp only [finish, Run.bind_apply, hMarked, hFlush]
    rfl
  rw [hFinish, ← hFiles]
  exact ⟨rfl, fun path hPath => queue.file?_handOn t _ hPath⟩

/-
  If the modules leave the headers that there were, every file
  is the one that they left, but where the nexthop leads to.
-/
theorem file?_process_of_sameHeaders
    (hHeader : settings.global.addHeader = false)
    {t : Transaction}
    {w : World}
    (hSame :
      SameHeaders t.message
        (queue.ran settings t w).1.2.2.message) :
    ∃ disposition,
      (queue.process settings t w).1.1 = .ok disposition ∧
        ∀ path,
          IsElsewhere settings (queue.ran settings t w).2.files
            path →
          (queue.process settings t w).2.files.file? path =
            (queue.ran settings t w).2.files.file? path := by
  rw [process_eq]
  rcases hRan : queue.ran settings t w with
    ⟨⟨outcome, names, after⟩, w'⟩
  rw [hRan] at hSame
  cases outcome with
  | none =>
      exact ⟨_, file?_finish_of_sameHeaders hHeader hSame names
        .completed w'⟩
  | some outcome =>
      cases outcome with
      | abort => exact ⟨_, rfl, fun _ _ => rfl⟩
      | stopAccept => exact ⟨_, rfl, fun _ _ => rfl⟩
      | carryOn =>
          exact ⟨_, file?_finish_of_sameHeaders hHeader hSame
            names .stopped w'⟩

/-
  Whatever the messages are, a snapshot of one is good for the
  other exactly if they have the same headers. Then writing
  the headers back does nothing to the disk, and otherwise it
  does. A chain whose modules make no change on the whole
  writes nothing but what it hands on.
-/
theorem rewrites_iff_changed
    (before after : Option Message)
    (settings : Settings)
    (t : Transaction)
    (w : World) :
    ((Snapshot.take before).isDirty (.take after) = false ↔
        SameHeaders before after) ∧
      (Equivalence fun first second =>
      (Snapshot.take first).isDirty (.take second) = false) ∧
      (∀ first second,
        Message.IsRearranged first second →
          (Snapshot.take before).isDirty (.take (some first)) =
              (Snapshot.take before).isDirty
                (.take (some second)) ∧
            (Snapshot.take (some first)).isDirty (.take after) =
              (Snapshot.take (some second)).isDirty
                (.take after)) ∧
      (∀ message, t.message = some message →
        ((Chain.flush (.take before) settings t).IsOffDisk ↔
            SameHeaders before (some message)) ∧
          ((Chain.flush (.take before) settings t w).1.1 =
              .ok false ↔
            SameHeaders before (some message))) ∧
      ∀ queue : Queue,
        settings.global.addHeader = false →
        SameHeaders t.message
          (queue.ran settings t w).1.2.2.message →
        ∃ disposition,
          (queue.process settings t w).1.1 = .ok disposition ∧
            ∀ path,
              IsElsewhere settings
                (queue.ran settings t w).2.files path →
              (queue.process settings t w).2.files.file? path =
                (queue.ran settings t w).2.files.file?
                    path := by
  refine ⟨Snapshot.isDirty_eq_false_iff _ _, ?_, ?_, ?_, ?_⟩
  · simp only [Snapshot.isDirty_eq_false_iff]
    exact ⟨fun _ => .refl _, .symm, .trans⟩
  · intro first second hRearranged
    have hSame := hRearranged.sameHeaders
    exact ⟨(Snapshot.isDirty_congr hSame before).2,
      (Snapshot.isDirty_congr hSame after).1⟩
  · intro message hMessage
    rw [Chain.isOffDisk_flush_iff hMessage,
      Chain.flush_eq_false_iff hMessage,
      Snapshot.isDirty_eq_false_iff]
    exact ⟨Iff.rfl, Iff.rfl⟩
  · intro queue hHeader hSame
    exact file?_process_of_sameHeaders hHeader hSame

/- The only module gives a field a value, whatever it was. -/
def setOnce : Queue where
  modules := [
    .scripted "m1" [.edit (.set "X-Checked" "yes")] 0
  ]
  policy := Smtp.policy

/-
  The first time the field is new and the file is replaced.
  The second time nothing is written.
-/
theorem rewrites_setOnce :
    let once :=
      setOnce.process .holding (.holding plainMessage)
        (.holding plainMail)
    let twice := setOnce.process .holding once.1.2 once.2
    once.2.files.content? (.spooled "/q" 0) =
        some (Utf8.encode
          "Subject: a\r\nX-Checked: yes\r\n\r\nbody\r\n") ∧
      twice.2.files.file? (.spooled "/q" 0) =
        once.2.files.file? (.spooled "/q" 0) := by
  intro once twice
  refine ⟨by decide +kernel, ?_⟩
  have hSame :
      SameHeaders once.1.2.message
        (setOnce.ran .holding once.1.2 once.2).1.2.2.message := by
    unfold SameHeaders
    decide +kernel
  rcases (rewrites_iff_changed none none .holding once.1.2
      once.2).2.2.2.2 setOnce rfl hSame with
    ⟨_, _, hKept⟩
  have hLeft :
      (setOnce.ran .holding once.1.2 once.2).2.files.file?
          (.spooled "/q" 0) =
        once.2.files.file? (.spooled "/q" 0) := by
    decide +kernel
  exact (hKept _ fun _ hFind => nomatch hFind).trans hLeft

end Queue

end MailFilter
