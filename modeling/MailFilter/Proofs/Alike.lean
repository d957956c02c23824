import MailFilter.Delivery.Nexthop
import MailFilter.Proofs.Spool.Replace

/-
  Two runs of the filter side by side.

  The runs started in two worlds that need not be the same.
  What differs between them ever after is how transactions and
  spool files are numbered, and what there was before. Paths
  are alike if they are those of the spool files that were
  made at the same point of each run.

  Key definitions include:
    * `Path.Alike`
    * `Files.Alike`
    * `Agree`
    * `Both`
    * `Transaction.view`
    * `Note.view?`
    * `World.Alike`
    * `World.Resembles`
    * `Run.Alike`

  Main statements:
    * `World.Resembles.alike`
    * `Run.Alike.bind`
    * `Run.Alike.bind_both`
    * `Spool.alike_create`
    * `Spool.alike_replace`
    * `Spool.alike_load`
-/

namespace MailFilter

open World

------------------------------------------------------------
-- Paths And Files
------------------------------------------------------------

/-
  The paths of spool files whose numbers are equally far from
  the first number of each run.
-/
inductive Path.Alike
    (a b : World) : Path → Path → Prop where
  | spooled (dir : String) (k : Nat) :
      Path.Alike a b (.spooled dir (a.files.next + k))
        (.spooled dir (b.files.next + k))

/- A file as it is seen by who counts from a number on. -/
def File.since
    (start : Nat)
    (file : File) : Bytes × Int :=
  (file.content, file.stamp - start)

/-
  Files that a run cannot tell apart: those that it made
  itself, and whatever else has a name, is a link, a directory
  or a device. No name leads into the spool.
-/
structure Files.Alike
    (a b : World)
    (files others : Files) : Prop where
  next : ∃ k,
      files.next = a.files.next + k ∧
        others.next = b.files.next + k
  spooled :
    ∀ {path other}, Path.Alike a b path other →
      (files.file? path).map (File.since a.files.next) =
        (others.file? other).map (File.since b.files.next)
  named :
    ∀ name,
      (files.file? (.named name)).isSome =
        (others.file? (.named name)).isSome
  links : files.links = others.links
  leads :
    ∀ name, ∃ target,
      files.resolve (.named name) = .named target
  directories : files.directories = others.directories
  devices : files.devices = others.devices
  refusal :
    ∀ step {path other}, Path.Alike a b path other →
      files.refusal step path = others.refusal step other

/- Both results are values that are alike, or both are errors. -/
inductive Agree
    {ε δ α β : Type}
    (R : α → β → Prop) :
    Except ε α → Except δ β → Prop where
  | ok {x : α} {y : β} :
      R x y → Agree R (.ok x) (.ok y)
  | error (e : ε) (d : δ) :
      Agree R (.error e) (.error d)

/- The parts of two pairs are in relations of their own. -/
def Both
    {α β γ δ : Type}
    (R : α → β → Prop)
    (S : γ → δ → Prop)
    (x : α × γ)
    (y : β × δ) : Prop :=
  R x.1 y.1 ∧ S x.2 y.2

/- Pairs of which the first parts are equal. -/
theorem Both.exists_eq
    {α β γ : Type}
    {S : β → γ → Prop}
    {x : α × β}
    {y : α × γ}
    (hBoth : Both Eq S x y) :
    ∃ same left right,
      x = (same, left) ∧ y = (same, right) ∧ S left right :=
  ⟨x.1, x.2, y.2, rfl, Prod.ext hBoth.1.symm rfl, hBoth.2⟩

section

variable {a b : World}
variable {path other source target : Path}
variable {files others : Files}

/- Alike paths are the same paths on each side. -/
theorem Path.Alike.eq_iff
    (hPath : Path.Alike a b path other)
    (hTarget : Path.Alike a b source target) :
    path = source ↔ other = target := by
  cases hPath with
  | spooled dir k =>
      cases hTarget with
      | spooled place j => simp

namespace Files.Alike

variable (hFiles : Files.Alike a b files others)

include hFiles

/- There is no file at alike paths, or one on each side. -/
theorem file?_cases
    (hPath : Path.Alike a b path other) :
    (files.file? path = none ∧ others.file? other = none) ∨
      ∃ file twin,
        files.file? path = some file ∧
          others.file? other = some twin ∧
          file.since a.files.next =
            twin.since b.files.next := by
  have hSame := hFiles.spooled hPath
  cases hFile : files.file? path with
  | none =>
      rw [hFile] at hSame
      exact Or.inl
        ⟨rfl, Option.map_eq_none_iff.mp hSame.symm⟩
  | some file =>
      rw [hFile] at hSame
      rcases Option.map_eq_some_iff.mp hSame.symm with
        ⟨twin, hTwin, hSince⟩
      exact Or.inr ⟨file, twin, rfl, hTwin, hSince.symm⟩

/- What alike paths lead to has the same content. -/
theorem content?
    (hPath : Path.Alike a b path other) :
    files.content? path = others.content? other := by
  unfold Files.content?
  rcases hFiles.file?_cases hPath with
    ⟨hFile, hTwin⟩ | ⟨file, twin, hFile, hTwin, hSince⟩
  · rw [hFile, hTwin]
  · rw [hFile, hTwin]
    exact congrArg some (congrArg Prod.fst hSince)

theorem hasDirectory
    (path : Path) :
    files.hasDirectory path = others.hasDirectory path := by
  unfold Files.hasDirectory
  rw [hFiles.directories]

/- Files are put at alike paths. -/
theorem put
    (hPath : Path.Alike a b path other)
    {file twin : File}
    (hTwin : file.since a.files.next = twin.since b.files.next)
    {next after : Nat}
    (hNext :
      ∃ k,
        next = a.files.next + k ∧
          after = b.files.next + k) :
    Files.Alike a b { files.put path file with next := next }
      { others.put other twin with next := after } where
  next := hNext
  spooled := by
    intro source target hSource
    have hSame := hSource.eq_iff hPath
    change ((files.put path file).file? source).map _ =
      ((others.put other twin).file? target).map _
    rw [file?_put, file?_put]
    by_cases hHere : source = path
    · rw [if_pos hHere, if_pos (hSame.mp hHere),
        Option.map_some, Option.map_some, hTwin]
    · rw [if_neg hHere, if_neg fun hTo => hHere (hSame.mpr hTo)]
      exact hFiles.spooled hSource
  named := by
    intro name
    change ((files.put path file).file? _).isSome =
      ((others.put other twin).file? _).isSome
    cases hPath with
    | spooled dir k =>
        rw [file?_put, file?_put, if_neg (by simp),
          if_neg (by simp)]
        exact hFiles.named name
  links := hFiles.links
  leads := hFiles.leads
  directories := hFiles.directories
  devices := hFiles.devices
  refusal := hFiles.refusal

/- Files with the same name are put there. -/
theorem putNamed
    (name : String)
    (file twin : File)
    {next after : Nat}
    (hNext :
      ∃ k,
        next = a.files.next + k ∧
          after = b.files.next + k) :
    Files.Alike a b
      { files.put (.named name) file with next := next }
      { others.put (.named name) twin with next := after } where
  next := hNext
  spooled := by
    intro source target hSource
    change ((files.put _ file).file? source).map _ =
      ((others.put _ twin).file? target).map _
    have hSame := hFiles.spooled hSource
    cases hSource with
    | spooled dir k =>
        rwa [file?_put, file?_put, if_neg (by simp),
          if_neg (by simp)]
  named := by
    intro title
    change ((files.put _ file).file? _).isSome =
      ((others.put _ twin).file? _).isSome
    rw [file?_put, file?_put]
    split
    · rfl
    · exact hFiles.named title
  links := hFiles.links
  leads := hFiles.leads
  directories := hFiles.directories
  devices := hFiles.devices
  refusal := hFiles.refusal

/- Files are dropped at alike paths. -/
theorem drop
    (hPath : Path.Alike a b path other) :
    Files.Alike a b (files.drop path) (others.drop other) where
  next := hFiles.next
  spooled := by
    intro source target hSource
    have hSame := hSource.eq_iff hPath
    rw [file?_drop, file?_drop]
    by_cases hHere : source = path
    · rw [if_pos hHere, if_pos (hSame.mp hHere)]
      rfl
    · rw [if_neg hHere, if_neg fun hTo => hHere (hSame.mpr hTo)]
      exact hFiles.spooled hSource
  named := by
    intro name
    cases hPath with
    | spooled dir k =>
        rw [file?_drop, file?_drop, if_neg (by simp),
          if_neg (by simp)]
        exact hFiles.named name
  links := hFiles.links
  leads := hFiles.leads
  directories := hFiles.directories
  devices := hFiles.devices
  refusal := hFiles.refusal

theorem read
    (hPath : Path.Alike a b path other) :
    Agree Eq (files.read path) (others.read other) := by
  unfold Files.read
  rw [hFiles.refusal .read hPath]
  cases others.refusal .read other with
  | some fault => exact .error _ _
  | none =>
      rcases hFiles.file?_cases hPath with
        ⟨hFile, hTwin⟩ | ⟨file, twin, hFile, hTwin, hSince⟩
      · rw [hFile, hTwin]
        dsimp only
        split <;> split <;> exact .error _ _
      · rw [hFile, hTwin]
        exact .ok (congrArg Prod.fst hSince)

theorem create
    (dir : String) :
    Agree
      (fun made twin =>
        Path.Alike a b made.1 twin.1 ∧
          Files.Alike a b made.2 twin.2)
      (files.create dir) (others.create dir) := by
  rcases hFiles.next with ⟨k, hNext, hOther⟩
  have hPath :
      Path.Alike a b (.spooled dir files.next)
        (.spooled dir others.next) := by
    rw [hNext, hOther]
    exact .spooled dir k
  have hSince :
      File.since a.files.next ⟨files.next, files.next, []⟩ =
        File.since b.files.next
          ⟨others.next, others.next, []⟩ := by
    simp only [File.since, hNext, hOther, Prod.mk.injEq,
      true_and]
    omega
  unfold Files.create
  dsimp only
  rw [hFiles.refusal .create hPath, hFiles.hasDirectory]
  cases others.refusal .create (.spooled dir others.next) with
  | some fault => exact .error _ _
  | none =>
      cases others.hasDirectory (.named dir) with
      | false => exact .error _ _
      | true =>
          exact .ok ⟨hPath, hFiles.put hPath hSince
            ⟨k + 1, congrArg (· + 1) hNext,
              congrArg (· + 1) hOther⟩⟩

theorem write
    (hPath : Path.Alike a b path other)
    (content : Bytes) :
    Agree (Files.Alike a b) (files.write path content)
      (others.write other content) := by
  rcases hFiles.next with ⟨k, hNext, hOther⟩
  unfold Files.write
  rw [hFiles.refusal .write hPath]
  cases others.refusal .write other with
  | some fault =>
      cases content.isEmpty with
      | true => exact .ok hFiles
      | false => exact .error _ _
  | none =>
      rcases hFiles.file?_cases hPath with
        ⟨hFile, hTwin⟩ | ⟨file, twin, hFile, hTwin, _⟩
      · rw [hFile, hTwin]
        exact .ok hFiles
      · rw [hFile, hTwin]
        refine .ok (hFiles.put hPath ?_
          ⟨k + 1, congrArg (· + 1) hNext,
            congrArg (· + 1) hOther⟩)
        simp only [File.since, hNext, hOther, Prod.mk.injEq,
          true_and]
        omega

theorem sync
    (hPath : Path.Alike a b path other) :
    Agree (Files.Alike a b) (files.sync path)
      (others.sync other) := by
  unfold Files.sync
  rw [hFiles.refusal .sync hPath]
  cases others.refusal .sync other with
  | some fault => exact .error _ _
  | none => exact .ok hFiles

/- Files are written behind the back of the disk. -/
theorem overwrite
    (hPath : Path.Alike a b path other)
    (content : Bytes)
    (keepStamp : Bool) :
    Files.Alike a b (files.overwrite path content keepStamp)
      (others.overwrite other content keepStamp) := by
  rcases hFiles.next with ⟨k, hNext, hOther⟩
  unfold Files.overwrite
  rcases hFiles.file?_cases hPath with
    ⟨hFile, hTwin⟩ | ⟨file, twin, hFile, hTwin, hSince⟩
  · rw [hFile, hTwin]
    exact hFiles
  · rw [hFile, hTwin]
    refine hFiles.put hPath ?_
      ⟨k + 1, congrArg (· + 1) hNext, congrArg (· + 1) hOther⟩
    have hStamp :
        (file.stamp : Int) - a.files.next =
          twin.stamp - b.files.next :=
      congrArg Prod.snd hSince
    cases keepStamp with
    | true => exact congrArg (Prod.mk content) hStamp
    | false =>
        refine congrArg (Prod.mk content) ?_
        change (files.next : Int) - a.files.next =
          others.next - b.files.next
        omega

theorem remove
    (hPath : Path.Alike a b path other) :
    Agree (Files.Alike a b) (files.remove path)
      (others.remove other) := by
  unfold Files.remove
  rw [hFiles.refusal .remove hPath]
  cases others.refusal .remove other with
  | some fault => exact .error _ _
  | none =>
      rcases hFiles.file?_cases hPath with
        ⟨hFile, hTwin⟩ | ⟨file, twin, hFile, hTwin, _⟩
      · rw [hFile, hTwin]
        exact .error _ _
      · rw [hFile, hTwin]
        exact .ok (hFiles.drop hPath)

theorem rename
    (hPath : Path.Alike a b path other)
    (hTarget : Path.Alike a b source target) :
    Agree (Files.Alike a b) (files.rename source path)
      (others.rename target other) := by
  unfold Files.rename
  rw [hFiles.refusal .rename hPath]
  cases others.refusal .rename other with
  | some fault => exact .error _ _
  | none =>
      rcases hFiles.file?_cases hTarget with
        ⟨hFile, hTwin⟩ | ⟨file, twin, hFile, hTwin, hSince⟩
      · rw [hFile, hTwin]
        exact .error _ _
      · rw [hFile, hTwin]
        exact .ok ((hFiles.drop hTarget).put hPath hSince
          hFiles.next)

/- A spool file is copied to what a name leads to. -/
theorem copy
    (hPath : Path.Alike a b path other)
    (name : String) :
    Agree (Files.Alike a b) (files.copy path (.named name))
      (others.copy other (.named name)) := by
  rcases hFiles.next with ⟨k, hNext, hOther⟩
  rcases hFiles.leads name with ⟨target, hLeads⟩
  have hResolve :
      others.resolve (.named name) = .named target := by
    rw [← hLeads]
    unfold Files.resolve
    rw [hFiles.links]
  unfold Files.copy
  rw [hResolve, hLeads]
  generalize hRead : files.read path = read
  generalize hTwin : others.read other = twin
  have hAgree := hFiles.read hPath
  rw [hRead, hTwin] at hAgree
  cases hAgree with
  | error => exact .error _ _
  | ok hContent =>
      subst hContent
      dsimp only
      rw [hFiles.hasDirectory, hFiles.devices]
      cases others.hasDirectory (.named target) with
      | true => exact .error _ _
      | false =>
          cases others.devices.contains (.named target) with
          | true => exact .ok hFiles
          | false =>
              exact .ok (hFiles.putNamed target _ _
                ⟨k + 1, congrArg (· + 1) hNext,
                  congrArg (· + 1) hOther⟩)

/- The nexthop is found by what names lead to. -/
theorem find?_nexthop
    (settings : Settings) :
    Nexthop.find? files settings =
      Nexthop.find? others settings := by
  have hOther :
      ∀ name, files.hasOther (.named name) =
        others.hasOther (.named name) := by
    intro name
    unfold Files.hasOther
    rw [hFiles.named name, hFiles.links, hFiles.devices]
  have hParse :
      ∀ value, Nexthop.parse files value =
        Nexthop.parse others value := by
    intro value
    unfold Nexthop.parse
    rw [hOther value]
  unfold Nexthop.find?
  simp only [hParse]

/- Files were written on each side, or on none. -/
theorem modified?_eq_iff
    {after afters : Files}
    (hAfter : Files.Alike a b after afters)
    (hPath : Path.Alike a b path other) :
    after.modified? path = files.modified? path ↔
      afters.modified? other = others.modified? other := by
  have hStamps :
      ∀ {files others : Files}, Files.Alike a b files others →
        (files.modified? path).map
            (fun stamp : Nat => (stamp : Int) - a.files.next) =
          (others.modified? other).map
            (fun stamp : Nat => (stamp : Int) - b.files.next) := by
    intro files others hFiles
    have hSame := congrArg (Option.map Prod.snd)
      (hFiles.spooled hPath)
    rw [Option.map_map, Option.map_map] at hSame
    unfold Files.modified?
    rw [Option.map_map, Option.map_map]
    exact hSame
  have hBefore := hStamps hFiles
  have hLater := hStamps hAfter
  have hInj : ∀ k : Nat,
      Function.Injective fun stamp : Nat => (stamp : Int) - k := by
    intro k i j hSame
    dsimp only at hSame
    omega
  rw [← (Option.map_injective (hInj a.files.next)).eq_iff,
    hBefore, hLater,
    (Option.map_injective (hInj b.files.next)).eq_iff]

end Files.Alike

end

------------------------------------------------------------
-- Transactions
------------------------------------------------------------

/-
  What there is to a transaction besides its number and where
  its message is kept.
-/
def Transaction.view
    (t : Transaction) : Transaction :=
  { t with
    id := 0
    envelope := { t.envelope with messageFile := .empty } }

/- Transactions of alike messages, with alike spool files. -/
structure Transaction.Alike
    (a b : World)
    (t u : Transaction) : Prop where
  view : t.view = u.view
  path :
    Path.Alike a b t.envelope.messageFile u.envelope.messageFile

/-
  What a note tells of a partner of the chain: what a module
  was shown, which address was asked about, and what the
  policy was asked. Why a delivery failed is left out, since
  that names the spool file.
-/
def Note.view? : Note → Option Note
  | .invoked name native t spool =>
      some (.invoked name native t.view spool)
  | .judged value outcome => some (.judged value outcome)
  | .undelivered _ => none
  | .unloadable error skipped => some (.unloadable error skipped)
  | .asked address => some (.asked address)

namespace Transaction

variable {a b : World}
variable {t u : Transaction}

namespace Alike

variable (hSame : Transaction.Alike a b t u)

include hSame

/- What can be viewed of transactions that are alike is equal. -/
theorem part
    {α : Type}
    (part : Transaction → α)
    (hPart : ∀ t, part t.view = part t) :
    part t = part u := by
  rw [← hPart t, hSame.view, hPart]

/- A change that does not go by numbers keeps them alike. -/
theorem map
    (change : Transaction → Transaction)
    (hView : ∀ t, (change t).view = (change t.view).view)
    (hPath :
      ∀ t, (change t).envelope.messageFile =
        t.envelope.messageFile) :
    Transaction.Alike a b (change t) (change u) where
  view := by rw [hView, hSame.view, ← hView]
  path := by
    rw [hPath, hPath]
    exact hSame.path

theorem message : t.message = u.message :=
  hSame.part Transaction.message fun _ => rfl

theorem withMessage
    (message : Option Message) :
    Transaction.Alike a b (t.withMessage message)
      (u.withMessage message) :=
  hSame.map (·.withMessage message) (fun _ => rfl) fun _ => rfl

end Alike

end Transaction

------------------------------------------------------------
-- Worlds
------------------------------------------------------------

/-
  Lists that got new entries at the front of which the same is
  to be seen.
-/
def SameNews
    {α : Type}
    (view? : α → Option α)
    (before beforeOther now other : List α) : Prop :=
  ∃ news others,
    now = news ++ before ∧
      other = others ++ beforeOther ∧
      news.filterMap view? = others.filterMap view?

/-
  What has become of two worlds if nobody can tell the runs
  apart by what was shown and sent since.
-/
structure World.Alike
    (a b w v : World) : Prop where
  files : Files.Alike a b w.files v.files
  relays : w.network.relays = v.network.relays
  refusal : w.network.refusal = v.network.refusal
  transcripts :
    SameNews some a.network.transcripts b.network.transcripts
      w.network.transcripts v.network.transcripts
  journal :
    SameNews Note.view? a.journal b.journal w.journal v.journal
  stamp : w.stamp = v.stamp
  machine : w.machine = v.machine

/-
  Worlds of which one is as good as the other to start a run
  in. They have the same names, links, directories, devices,
  relays and clock. The disk refuses the same of what is still
  to be made, and no spool file is there ahead of its time.
  What files hold and how many were made may differ.
-/
structure World.Resembles
    (a b : World) : Prop where
  named :
    ∀ name,
      (a.files.file? (.named name)).isSome =
        (b.files.file? (.named name)).isSome
  links : a.files.links = b.files.links
  leads :
    ∀ name, ∃ target,
      a.files.resolve (.named name) = .named target
  directories : a.files.directories = b.files.directories
  devices : a.files.devices = b.files.devices
  refusal :
    ∀ step dir k,
      a.files.refusal step (.spooled dir (a.files.next + k)) =
        b.files.refusal step (.spooled dir (b.files.next + k))
  fresh :
    ∀ dir k,
      a.files.file? (.spooled dir (a.files.next + k)) = none ∧
        b.files.file? (.spooled dir (b.files.next + k)) = none
  relays : a.network.relays = b.network.relays
  unreachable : a.network.refusal = b.network.refusal
  stamp : a.stamp = b.stamp
  machine : a.machine = b.machine

/-
  So do worlds with the same files, of which none is in the
  spool ahead of its time.
-/
theorem World.Resembles.of_files
    {a b : World}
    (hFiles : b.files = a.files)
    (hFresh :
      ∀ dir k,
        a.files.file? (.spooled dir (a.files.next + k)) = none)
    (hLeads :
      ∀ name, ∃ target,
        a.files.resolve (.named name) = .named target)
    (hRelays : a.network.relays = b.network.relays)
    (hUnreachable : a.network.refusal = b.network.refusal)
    (hStamp : a.stamp = b.stamp)
    (hMachine : a.machine = b.machine) :
    a.Resembles b where
  named := by simp only [hFiles, implies_true]
  links := by rw [hFiles]
  leads := hLeads
  directories := by rw [hFiles]
  devices := by rw [hFiles]
  refusal := by simp only [hFiles, implies_true]
  fresh := by
    intro dir k
    rw [hFiles]
    exact ⟨hFresh dir k, hFresh dir k⟩
  relays := hRelays
  unreachable := hUnreachable
  stamp := hStamp
  machine := hMachine

namespace SameNews

variable {α : Type}
variable {view? : α → Option α}
variable {before beforeOther now other : List α}

theorem refl
    (view? : α → Option α)
    (before beforeOther : List α) :
    SameNews view? before beforeOther before beforeOther :=
  ⟨[], [], rfl, rfl, rfl⟩

theorem cons
    (hSame : SameNews view? before beforeOther now other)
    {x y : α}
    (hView : view? x = view? y) :
    SameNews view? before beforeOther (x :: now) (y :: other) := by
  rcases hSame with ⟨news, others, rfl, rfl, hNews⟩
  refine ⟨x :: news, y :: others, rfl, rfl, ?_⟩
  rw [List.filterMap_cons, List.filterMap_cons, hView, hNews]

/- If everything is seen the news are the same. -/
theorem exists_eq
    (hSame : SameNews some before beforeOther now other) :
    ∃ news,
      now = news ++ before ∧ other = news ++ beforeOther := by
  rcases hSame with ⟨news, others, hNow, hOther, hNews⟩
  rw [List.filterMap_some, List.filterMap_some] at hNews
  exact ⟨news, hNow, hNews ▸ hOther⟩

end SameNews

/- Worlds that resemble one another are alike at the start. -/
theorem World.Resembles.alike
    {a b : World}
    (hStart : a.Resembles b) :
    World.Alike a b a b where
  files := {
    next := ⟨0, rfl, rfl⟩
    spooled := by
      intro path other hPath
      cases hPath with
      | spooled dir k =>
          rw [(hStart.fresh dir k).1, (hStart.fresh dir k).2]
          rfl
    named := hStart.named
    links := hStart.links
    leads := hStart.leads
    directories := hStart.directories
    devices := hStart.devices
    refusal := by
      intro step path other hPath
      cases hPath with
      | spooled dir k => exact hStart.refusal step dir k }
  relays := hStart.relays
  refusal := hStart.unreachable
  transcripts := .refl _ _ _
  journal := .refl _ _ _
  stamp := hStart.stamp
  machine := hStart.machine

------------------------------------------------------------
-- Runs
------------------------------------------------------------

/-
  Computations that give results in a relation, and leave
  worlds alike, when they are run on worlds that are.
-/
def Run.Alike
    {α β : Type}
    (a b : World)
    (R : α → β → Prop)
    (run : Run α)
    (other : Run β) : Prop :=
  ∀ w v, World.Alike a b w v →
    R (run w).1 (other v).1 ∧
      World.Alike a b (run w).2 (other v).2

section

variable {a b : World}

namespace Run.Alike

variable {α β γ δ : Type}
variable {R : α → β → Prop}
variable {S : γ → δ → Prop}

theorem pure
    {x : α}
    {y : β}
    (hValue : R x y) :
    Run.Alike a b R (Pure.pure x) (Pure.pure y) :=
  fun _ _ hWorld => ⟨hValue, hWorld⟩

theorem bind
    {run : Run α}
    {other : Run β}
    (hRun : Run.Alike a b R run other)
    {next : α → Run γ}
    {after : β → Run δ}
    (hNext :
      ∀ x y, R x y → Run.Alike a b S (next x) (after y)) :
    Run.Alike a b S (run >>= next) (other >>= after) := by
  intro w v hWorld
  rcases hRun w v hWorld with ⟨hValue, hBetween⟩
  exact hNext _ _ hValue _ _ hBetween

/- What follows may go by the parts that are equal. -/
theorem bind_both
    {ε : Type}
    {run : Run (ε × α)}
    {other : Run (ε × β)}
    (hRun : Run.Alike a b (Both Eq R) run other)
    {next : ε × α → Run γ}
    {after : ε × β → Run δ}
    (hNext :
      ∀ same x y, R x y →
        Run.Alike a b S (next (same, x)) (after (same, y))) :
    Run.Alike a b S (run >>= next) (other >>= after) := by
  refine hRun.bind ?_
  intro x y hBoth
  rcases hBoth.exists_eq with ⟨same, left, right, rfl, rfl, hLeft⟩
  exact hNext same left right hLeft

theorem mono
    {T : α → β → Prop}
    {run : Run α}
    {other : Run β}
    (hRun : Run.Alike a b R run other)
    (hMono : ∀ x y, R x y → T x y) :
    Run.Alike a b T run other := by
  intro w v hWorld
  rcases hRun w v hWorld with ⟨hValue, hAfter⟩
  exact ⟨hMono _ _ hValue, hAfter⟩

/- What is looked at are worlds that are alike. -/
theorem get :
    Run.Alike a b (World.Alike a b) MonadState.get
      MonadState.get :=
  fun _ _ hWorld => ⟨hWorld, hWorld⟩

/- Nobody looks at the log. -/
theorem emit
    (event twin : Log.Event) :
    Run.Alike a b Eq (World.emit event) (World.emit twin) :=
  fun _ _ hWorld => ⟨rfl, { hWorld with }⟩

theorem record
    {note twin : Note}
    (hView : note.view? = twin.view?) :
    Run.Alike a b Eq (World.record note) (World.record twin) :=
  fun _ _ hWorld =>
    ⟨rfl, { hWorld with journal := hWorld.journal.cons hView }⟩

/- New transactions differ in their numbers. -/
theorem newTransaction :
    Run.Alike a b (fun t u => t.view = u.view)
      World.newTransaction World.newTransaction :=
  fun _ _ hWorld => ⟨rfl, { hWorld with }⟩

end Run.Alike

/- Files that are alike may take the place of the old ones. -/
theorem World.Alike.setFiles
    {w v : World}
    (hWorld : World.Alike a b w v)
    {files others : Files}
    (hFiles :
      Files.Alike a b files others) :
    World.Alike a b { w with files := files }
      { v with files := others } :=
  { hWorld with files := hFiles }

------------------------------------------------------------
-- Spool Files
------------------------------------------------------------

namespace Spool

variable {path other : Path}

/- What is done to alike files succeeds or fails alike. -/
theorem alike_attempt
    (step stepOther : Step)
    (path other : Path)
    {operation twin : Files → Except Fault Files}
    (hOperation :
      ∀ files others,
        Files.Alike a b files others →
        Agree (Files.Alike a b)
          (operation files) (twin others)) :
    Run.Alike a b (Agree Eq) (attempt step path operation)
      (attempt stepOther other twin) := by
  intro w v hWorld
  have hAgree := hOperation _ _ hWorld.files
  unfold attempt
  generalize operation w.files = result at hAgree
  generalize twin v.files = twinResult at hAgree
  cases hAgree with
  | ok hFiles => exact ⟨.ok rfl, hWorld.setFiles hFiles⟩
  | error => exact ⟨.error _ _, hWorld⟩

theorem alike_create
    (dir : String) :
    Run.Alike a b
      (Agree (Path.Alike a b))
      (create dir) (create dir) := by
  intro w v hWorld
  have hAgree := hWorld.files.create dir
  unfold create
  generalize w.files.create dir = result at hAgree
  generalize v.files.create dir = twinResult at hAgree
  cases hAgree with
  | ok hMade =>
      exact ⟨.ok hMade.1, hWorld.setFiles hMade.2⟩
  | error => exact ⟨.error _ _, hWorld⟩

theorem alike_read
    (hPath : Path.Alike a b path other) :
    Run.Alike a b (Agree Eq) (read path) (read other) := by
  intro w v hWorld
  have hAgree := hWorld.files.read hPath
  rw [read_apply, read_apply]
  generalize w.files.read path = result at hAgree
  generalize v.files.read other = twinResult at hAgree
  cases hAgree with
  | ok hContent => exact ⟨.ok hContent, hWorld⟩
  | error => exact ⟨.error _ _, hWorld⟩

theorem alike_write
    (hPath : Path.Alike a b path other)
    (content : Bytes) :
    Run.Alike a b (Agree Eq) (write path content)
      (write other content) :=
  alike_attempt _ _ _ _ fun _ _ hFiles =>
    hFiles.write hPath content

theorem alike_store
    (hPath : Path.Alike a b path other)
    (content : Bytes) :
    Run.Alike a b (Agree Eq) (store path content)
      (store other content) := by
  unfold store
  refine .bind (alike_write hPath content) ?_
  intro written twin hWritten
  cases hWritten with
  | error => exact .pure (.error _ _)
  | ok =>
      exact alike_attempt _ _ _ _ fun _ _ hFiles =>
        hFiles.sync hPath

theorem alike_remove
    (hPath : Path.Alike a b path other) :
    Run.Alike a b Eq (remove path) (remove other) := by
  intro w v hWorld
  have hAgree := hWorld.files.remove hPath
  unfold remove
  generalize w.files.remove path = result at hAgree
  generalize v.files.remove other = twinResult at hAgree
  cases hAgree with
  | ok hFiles =>
      exact Run.Alike.emit _ _ _ _ (hWorld.setFiles hFiles)
  | error => exact Run.Alike.emit _ _ _ _ hWorld

theorem alike_discard
    (hPath : Path.Alike a b path other) :
    Run.Alike a b Eq (discard path) (discard other) := by
  intro w v hWorld
  have hAgree := hWorld.files.remove hPath
  unfold discard
  generalize w.files.remove path = result at hAgree
  generalize v.files.remove other = twinResult at hAgree
  cases hAgree with
  | ok hFiles => exact ⟨rfl, hWorld.setFiles hFiles⟩
  | error => exact ⟨rfl, hWorld⟩

/- Replacing a file ends at the same step on each side. -/
theorem alike_replace
    (dir : String)
    (hPath : Path.Alike a b path other)
    (parts : List Bytes) :
    Run.Alike a b (Agree Eq) (replace dir path parts)
      (replace dir other parts) := by
  unfold replace
  refine .bind (alike_create dir) ?_
  intro made twin hMade
  cases hMade with
  | error => exact .pure (.error _ _)
  | @ok fresh twin hFresh =>
      have hDiscard :
          ∀ e d : SpoolError,
            Run.Alike a b (Agree Eq)
              (do
                discard fresh
                return .error e : Run (Except SpoolError Unit))
              (do
                discard twin
                return .error d : Run (Except SpoolError Unit)) :=
        fun e d =>
          .bind (alike_discard hFresh) fun _ _ _ =>
            .pure (.error e d)
      refine .bind (alike_store hFresh _) ?_
      intro written twin hWritten
      cases hWritten with
      | error e d => exact hDiscard e d
      | ok =>
          refine .bind (alike_attempt _ _ _ _ fun _ _ hFiles =>
            hFiles.remove hPath) ?_
          intro removed twin hRemoved
          cases hRemoved with
          | error e d => exact hDiscard e d
          | ok =>
              refine .bind (alike_attempt _ _ _ _
                fun _ _ hFiles => hFiles.rename hPath hFresh) ?_
              intro renamed twin hRenamed
              cases hRenamed with
              | error e d => exact hDiscard e d
              | ok => exact .pure (.ok rfl)

/- What is loaded is the same message. -/
theorem alike_load
    (hPath : Path.Alike a b path other) :
    Run.Alike a b (Agree Eq) (load path) (load other) := by
  unfold load
  refine .bind (alike_read hPath) ?_
  intro content twin hContent
  cases hContent with
  | error => exact .pure (.error _ _)
  | @ok raw _ hSame =>
      subst hSame
      dsimp only
      cases Message.parse raw with
      | error e => exact .pure (.error _ _)
      | ok message => exact .pure (.ok rfl)

end Spool

end

end MailFilter
