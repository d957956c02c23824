import MailFilter.Pipe
import MailFilter.Proofs.Smtp.Places

/-
  No spool file is left behind.

  However a connection or a run of the pipe engine ends, the
  same paths lead to files as before, as far as neither a
  module nor a delivery made a file there. Between two
  messages of a connection that holds too.

  Key definitions include:
    * `Settings.LeavesClean`

  Main statements:
    * `Pipe.samePlaces_run`
    * `Queue.leavesClean_of_keepsPlaces`
-/

namespace MailFilter

open World

------------------------------------------------------------
-- The Pipe Engine
------------------------------------------------------------

namespace Pipe

variable {skip : Path → Prop}
variable {base : Files}
variable {settings : Settings}
variable {queue : Queue}

/- The input is spooled, loaded and sent through the chain. -/
theorem samePlaces_processInput
    (hSpares : queue.Spares settings skip base)
    (input : Input)
    {t : Transaction}
    (hPath : skip t.envelope.messageFile)
    {w : World}
    (hSame : Files.SamePlaces skip base w.files) :
    Files.SamePlaces skip base
      (processInput settings queue input t w).2.files := by
  simp only [processInput, spoolInput, Run.bind_apply]
  cases input.failure with
  | some fault => exact hSame
  | none =>
      have hWritten :=
        hSame.trans
          (Spool.samePlaces_write t.envelope.messageFile
            input.data w)
      simp only [Run.bind_apply]
      rcases hWrite :
          Spool.write t.envelope.messageFile input.data w with
        ⟨result, written⟩
      rw [hWrite] at hWritten
      cases result with
      | error e => exact hWritten
      | ok done =>
          simp only [Run.bind_apply, Run.pure_apply,
            Spool.load_apply]
          generalize hSaid : (sayOf .debug t _ written).2 = said
          have hFiles : said.files = written.files := by
            rw [← hSaid]
            rfl
          rw [← hFiles] at hWritten
          cases said.files.read t.envelope.messageFile with
          | error fault => exact hWritten
          | ok raw =>
              dsimp only
              cases Message.parse raw with
              | error e => exact hWritten
              | ok message =>
                  have hProcessed :=
                    (Queue.samePlaces_process hSpares
                      (t := address t message) hPath
                      hWritten).2
                  simp only [Run.bind_apply]
                  rcases hProcess :
                      queue.process settings (address t message)
                        said with
                    ⟨⟨result, processed⟩, after⟩
                  rw [hProcess] at hProcessed
                  cases result with
                  | error e => exact hProcessed
                  | ok disposition => exact hProcessed

/- When a run is over all places are as they were. -/
theorem samePlaces_run
    {w : World}
    (hSpares : queue.Spares settings skip w.files)
    (input : Input) :
    Files.SamePlaces skip w.files
      (run settings queue input w).2.files := by
  simp only [run, Run.bind_apply]
  cases hCreate : w.files.create settings.global.queueDir with
  | error fault =>
      rw [Spool.create_of_error hCreate]
      rfl
  | ok made =>
      rcases made with ⟨path, files⟩
      rw [Spool.create_of_ok hCreate]
      rcases hNew : newTransaction { w with files := files } with
        ⟨t, started⟩
      have hStarted : started.files = files :=
        congrArg (·.2.files) hNew.symm
      have hMore :=
        Files.OneMore.create hCreate (.refl skip _)
          hSpares.fresh
      rw [← hStarted] at hMore
      have hProcessed :
          Files.SamePlaces
            (fun other => skip other ∨ other = path) w.files
            (processInput settings queue input
              { t with envelope := { messageFile := path } }
              started).2.files := by
        apply samePlaces_processInput
        · exact hSpares.mono fun _ => Or.inl
        · exact Or.inr rfl
        · exact hMore.places
      have hRemoved :=
        Spool.samePlaces_of_remove ⟨hProcessed, hMore.unused⟩
          hSpares.removal
      simp only [Run.bind_apply, hNew]
      rcases hProcess :
          processInput settings queue input
            { t with envelope := { messageFile := path } }
            started with
        ⟨⟨result, processed⟩, after⟩
      rw [hProcess] at hRemoved
      cases result with
      | error e => exact hRemoved
      | ok disposition => exact hRemoved

end Pipe

------------------------------------------------------------
-- Both Engines
------------------------------------------------------------

/-
  The same paths lead to files as before, but for those where
  modules make files of their own, and the place that the
  nexthop names if there was no file there.
-/
def Settings.LeavesClean
    (settings : Settings)
    (own : Path → Prop)
    (before after : Files) : Prop :=
  ∀ path, ¬ own path → ¬ settings.IsDestination before path →
    ((after.file? path).isSome ↔ (before.file? path).isSome)

/-
  A chain whose modules neither move nor delete files, and
  leave a message where it is kept, leaves no spool file and
  no temporary file, however a connection or a run of the pipe
  engine goes, as long as files can be removed. Whenever a
  command is to be read from the client there is none either.
-/
theorem Queue.leavesClean_of_keepsPlaces
    {queue : Queue}
    {settings : Settings}
    {own : Path → Prop}
    (hModules :
      ∀ m ∈ queue.modules, m.KeepsPlaces settings own)
    (hPolicy : queue.policy.KeepsPath)
    {w : World}
    (hFresh : w.files.IsFresh own)
    (hRemoval : w.files.LetsRemove) :
    (∀ hostname input writes,
      settings.LeavesClean own w.files
          (Smtp.run ⟨settings, queue, hostname⟩ input writes
            w).2.files ∧
        ∀ history s,
          (Smtp.Station.opening ⟨settings, queue, hostname⟩ input
            writes w).Reaches ⟨settings, queue, hostname⟩
              history s →
          s.AwaitsCommand →
          settings.LeavesClean own w.files s.world.files) ∧
      ∀ input,
        settings.LeavesClean own w.files
          (Pipe.run settings queue input w).2.files := by
  let skip : Path → Prop := fun path =>
    own path ∨ settings.IsDestination w.files path
  have hOwn : queue.Spares settings skip w.files := {
    modules := fun m hMem =>
      { path := (hModules m hMem).path
        places := fun t files =>
          ((hModules m hMem).places t files).mono
            fun _ => Or.inl }
    policy := hPolicy
    destination := fun _ => Or.inr
    fresh := hFresh.mono fun _ => Or.inl
    removal := hRemoval }
  have hClean :
      ∀ files, Files.SamePlaces skip w.files files →
        settings.LeavesClean own w.files files := by
    intro files hSame path hNot hOther
    rw [hSame.present path (by rintro (hIs | hIs) <;> contradiction)]
  refine ⟨?_, ?_⟩
  · intro hostname input writes
    refine ⟨?_, ?_⟩
    · exact hClean _ (Smtp.samePlaces_run hOwn input writes)
    · intro history s hReaches hAwaits
      have hPlaces :=
        Smtp.Station.places_of_reaches hOwn
          (Smtp.Station.places_opening _ input writes w)
          hReaches
      exact hClean _ (hPlaces.of_awaitsCommand hAwaits)
  · intro input
    exact hClean _ (Pipe.samePlaces_run hOwn input)

namespace Queue

/- A message. -/
def shortMail : Bytes :=
  Utf8.encode "Subject: a\r\n\r\nbody\r\n"

/- A chain whose module writes the spool file and edits it. -/
def writingQueue
    (policy : Policy) : Queue where
  modules := [
    Module.scripted "m" [
      .write shortMail false,
      .edit (.append "X-Seen" "1")] 0]
  policy := policy

/- Two messages, of which the second one does not end. -/
def twoMessages : Smtp.Inbound :=
  ⟨Utf8.encode ("MAIL FROM:<a@x>\r\nRCPT TO:<b@x>\r\nDATA\r\n" ++
    "\r\n.\r\nMAIL FROM:<a@x>\r\nRCPT TO:<b@x>\r\nDATA\r\n" ++
    "body"), .closed⟩

/-
  The old spool file is there afterwards, and no other one,
  whichever engine runs the chain.
-/
theorem leavesClean_twoMessages :
    let clean : Files → Prop := fun files =>
      (files.file? (.spooled "/q" 0)).isSome ∧
        ∀ number,
          files.file? (.spooled "/q" (number + 1)) = none
    clean
        (Smtp.run ⟨.holding, writingQueue Smtp.policy, "h"⟩
          twoMessages none (.holding [])).2.files ∧
      clean
        (Pipe.run .holding (writingQueue Pipe.policy)
          ⟨shortMail, none⟩ (.holding [])).2.files := by
  intro clean
  have hModules :
      ∀ policy, ∀ m ∈ (writingQueue policy).modules,
        m.KeepsPlaces .holding fun _ => False := by
    intro policy m hMem
    cases List.mem_singleton.mp hMem
    apply Module.Follows.keepsPlaces
    apply Module.follows_scripted
    intro action hAction
    rcases List.mem_pair.mp hAction with rfl | rfl <;> trivial
  have hOld :
      ∀ dir number, 1 ≤ number →
        (World.holding []).files.file? (.spooled dir number) =
          none := by
    intro dir number hNumber
    have hOther : Path.spooled dir number ≠ .spooled "/q" 0 := by
      rintro ⟨⟩
      omega
    simp [World.holding, Files.file?, List.lookup_cons,
      beq_eq_false_iff_ne.mpr hOther]
  have hRun :=
    (leavesClean_of_keepsPlaces (hModules Smtp.policy)
      Smtp.keepsMessage_policy.keepsPath
      (w := .holding []) (fun dir number _ => hOld dir number)
      (fun path => rfl)).1
  have hPipe :=
    (leavesClean_of_keepsPlaces (hModules Pipe.policy)
      Pipe.keepsMessage_policy.keepsPath
      (w := .holding []) (fun dir number _ => hOld dir number)
      (fun path => rfl)).2
  have hClean :
      ∀ files,
        Settings.holding.LeavesClean (fun _ => False)
          (World.holding []).files files →
        clean files := by
    intro files hLeaves
    have hSame :
        ∀ number, (files.file? (.spooled "/q" number)).isSome ↔
          ((World.holding []).files.file?
            (.spooled "/q" number)).isSome := by
      intro number
      apply hLeaves _ id
      rintro ⟨value, hValue, -⟩
      cases hValue
    refine ⟨(hSame 0).mpr rfl, ?_⟩
    intro number
    have hNone := hSame (number + 1)
    rw [hOld "/q" (number + 1) (by omega)] at hNone
    simpa using hNone
  exact ⟨hClean _ (hRun "h" twoMessages none).1,
    hClean _ (hPipe _)⟩

end Queue

end MailFilter
