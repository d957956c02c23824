import MailFilter.Pipe
import MailFilter.Proofs.Run
import MailFilter.Smtp.Policy

/-
  How the modules of a chain are loaded.

  The names are tried one after the other. Each one adds its
  module, is passed over, or ends the loading. So a chain that
  was loaded has the modules of the names that could be
  loaded, in the order of the names. A loading that failed did
  so at the first name that the policy does not pass over, and
  no name after that one is looked at.

  Key definitions include:
    * `Loading`
    * `Loading.found`
    * `Loading.fatal?`
    * `Loading.question?`
    * `Loading.after`
    * `Queue.withModules`

  Main statements:
    * `Queue.loadNames_cons_of_passes`
    * `Queue.loadNames_cons_of_fatal`
    * `Queue.loadNames_append`
    * `Queue.loadNames_congr`
    * `Queue.load_in_order`
-/

namespace MailFilter

open World

------------------------------------------------------------
-- What Comes Of A Name
------------------------------------------------------------

/- What modules are loaded with, and who judges failures. -/
structure Loading where
  loader : Loader
  settings : Settings
  policy : Policy

namespace Loading

/- Where the library of a name should be. -/
def path
    (l : Loading)
    (name : String) : String :=
  Library.path name l.settings.global.moduleDir

/- The module of a name, or why there is none. -/
def found
    (l : Loading)
    (name : String) : Except ModuleError Module :=
  match l.loader (l.path name) with
  | .entry run =>
      .ok { name := name, library := some (l.path name), run := run }
  | .noEntry reason => .error (.missingEntry name reason)
  | .unusable reason => .error (.load name reason)

/- The module of a name, if it can be loaded. -/
def module?
    (l : Loading)
    (name : String) : Option Module :=
  (l.found name).toOption

/- The error of a name, if the policy does not pass over it. -/
def fatal?
    (l : Loading)
    (name : String) : Option ModuleError :=
  match l.found name with
  | .ok _ => none
  | .error e =>
      if l.policy.skips l.settings e then none else some e

/- What the policy is asked about a name, and its answer. -/
def question?
    (l : Loading)
    (name : String) : Option Note :=
  match l.found name with
  | .ok _ => none
  | .error e =>
      some (.unloadable e (l.policy.skips l.settings e))

/- The event that a name ends with. -/
def verdict
    (l : Loading)
    (name : String) : Log.Event :=
  match l.found name with
  | .ok m => .internal .info ("Loaded module " ++ m.label)
  | .error e =>
      if l.policy.skips l.settings e then
        .internal .warn (e.text ++ ", skipping")
      else
        .internal .error e.text

/- The events of a name, with the newest first. -/
def said
    (l : Loading)
    (name : String) : List Log.Event :=
  [l.verdict name,
    .internal .debug
      ("Loading module " ++ name ++ " from " ++ l.path name)]

/-
  The world when names were tried. Each one was opened once,
  and the policy was asked about those that failed.
-/
def after
    (l : Loading)
    (names : List String)
    (w : World) : World :=
  { w with
    log := names.reverse.flatMap l.said ++ w.log
    journal := names.reverse.filterMap l.question? ++ w.journal }

theorem after_single
    (l : Loading)
    (name : String)
    (w : World) :
    l.after [name] w =
      { w with
        log := l.said name ++ w.log
        journal := (l.question? name).toList ++ w.journal } := by
  cases hQuestion : l.question? name <;> simp [after, hQuestion]

theorem after_append
    (l : Loading)
    (before names : List String)
    (w : World) :
    l.after (before ++ names) w =
      l.after names (l.after before w) := by
  simp [after, List.flatMap_append]

/- A module has the name that it was loaded by. -/
theorem name_of_found
    {l : Loading}
    {name : String}
    {m : Module}
    (hFound : l.found name = .ok m) :
    m.name = name := by
  unfold found at hFound
  split at hFound
  · cases hFound
    rfl
  · cases hFound
  · cases hFound

/- And an error says which module it is about. -/
theorem module_of_found
    {l : Loading}
    {name : String}
    {e : ModuleError}
    (hFound : l.found name = .error e) :
    e.module = name := by
  unfold found at hFound
  split at hFound
  · cases hFound
  · cases hFound
    rfl
  · cases hFound
    rfl

theorem fatal?_eq_none_iff
    {l : Loading}
    {name : String} :
    l.fatal? name = none ↔
      ∀ e, l.found name = .error e →
        l.policy.skips l.settings e = true := by
  unfold fatal?
  cases l.found name with
  | ok m => simp
  | error e => simp

theorem fatal?_eq_some_iff
    {l : Loading}
    {name : String}
    {e : ModuleError} :
    l.fatal? name = some e ↔
      l.found name = .error e ∧
        l.policy.skips l.settings e = false := by
  unfold fatal?
  cases l.found name with
  | ok m => simp
  | error given =>
      rw [Except.error.injEq]
      by_cases hSame : given = e
      · subst given
        simp
      · simp [hSame]

/- The names of the modules are the names that could be loaded. -/
theorem map_name_module?
    (l : Loading)
    (names : List String) :
    (names.filterMap l.module?).map Module.name =
      names.filter fun name => (l.module? name).isSome := by
  induction names with
  | nil => rfl
  | cons name names ih =>
      cases hFound : l.found name with
      | ok m =>
          have hModule : l.module? name = some m := by
            rw [module?, hFound]
            rfl
          rw [List.filterMap_cons_some hModule, List.map_cons,
            name_of_found hFound, ih,
            List.filter_cons_of_pos (by simp [hModule])]
      | error e =>
          have hModule : l.module? name = none := by
            rw [module?, hFound]
            rfl
          rw [List.filterMap_cons_none hModule, ih,
            List.filter_cons_of_neg (by simp [hModule])]

/-
  The loading ends at a name: the first one with an error that
  the policy does not pass over.
-/
structure EndsAt
    (l : Loading)
    (before : List String)
    (name : String)
    (e : ModuleError) : Prop where
  names :
    ∃ rest,
      l.settings.global.modules = before ++ [name] ++ rest
  passed :
    ∀ earlier ∈ before, ∀ given,
      l.found earlier = .error given →
        l.policy.skips l.settings given = true
  failed : l.found name = .error e
  stops : l.policy.skips l.settings e = false

/- Every name passes, or there is a first one that does not. -/
theorem passes_or_endsAt
    (l : Loading) :
    (∀ name ∈ l.settings.global.modules, l.fatal? name = none) ∨
      ∃ before name e, l.EndsAt before name e := by
  cases hFirst : l.settings.global.modules.findSome? l.fatal? with
  | none => exact Or.inl (List.findSome?_eq_none_iff.mp hFirst)
  | some e =>
      rcases List.findSome?_eq_some_iff.mp hFirst with
        ⟨before, name, rest, hNames, hFatal, hPass⟩
      rcases fatal?_eq_some_iff.mp hFatal with ⟨hFound, hStops⟩
      exact Or.inr ⟨before, name, e, ⟨rest, by simp [hNames]⟩,
        fun earlier hMem =>
          fatal?_eq_none_iff.mp (hPass earlier hMem),
        hFound, hStops⟩

end Loading

------------------------------------------------------------
-- One Name After The Other
------------------------------------------------------------

namespace Queue

/- Add modules to a chain after those that it has. -/
def withModules
    (queue : Queue)
    (modules : List Module) : Queue :=
  { queue with modules := queue.modules ++ modules }

theorem withModules_append
    (queue : Queue)
    (modules others : List Module) :
    queue.withModules (modules ++ others) =
      (queue.withModules modules).withModules others := by
  simp [withModules]

/- What a chain loads its modules with. -/
def loading
    (queue : Queue)
    (loader : Loader)
    (settings : Settings) : Loading :=
  ⟨loader, settings, queue.policy⟩

variable {queue : Queue}
variable {loader other : Loader}
variable {settings : Settings}
variable {name : String}
variable {before names : List String}

/- A name is opened, and that is logged. -/
theorem open?_apply
    (queue : Queue)
    (loader : Loader)
    (settings : Settings)
    (name : String)
    (w : World) :
    Library.open? loader name settings.global.moduleDir w =
      ((queue.loading loader settings).found name,
        (say .debug
          ("Loading module " ++ name ++ " from " ++
            (queue.loading loader settings).path name)
          w).2) := by
  simp only [Library.open?, Run.bind_apply, Loading.found,
    Loading.path, loading]
  cases loader (Library.path name settings.global.moduleDir) <;>
    rfl

/- A name that does not end the loading adds its module, if any. -/
theorem loadNames_cons_of_passes
    (hPasses :
      (queue.loading loader settings).fatal? name = none)
    (names : List String)
    (w : World) :
    loadNames loader settings (name :: names) queue w =
      loadNames loader settings names
        (queue.withModules
          ((queue.loading loader settings).module? name).toList)
        ((queue.loading loader settings).after [name] w) := by
  rw [Loading.fatal?_eq_none_iff] at hPasses
  rw [Loading.after_single, Loading.said, Loading.verdict,
    Loading.question?, Loading.module?]
  cases hFound : (queue.loading loader settings).found name with
  | ok m =>
      simp only [loadNames, Run.bind_apply, open?_apply queue,
        hFound]
      rfl
  | error e =>
      have hSkips : queue.policy.skips settings e = true :=
        hPasses e hFound
      have hKept : queue.withModules [] = queue := by
        simp [withModules]
      simp only [loadNames, Run.bind_apply, open?_apply queue,
        hFound, hSkips, hPasses e hFound, if_true]
      exact congrArg (loadNames loader settings names · _)
        hKept.symm

/- The other names are not looked at. -/
theorem loadNames_cons_of_fatal
    {e : ModuleError}
    (hFatal :
      (queue.loading loader settings).fatal? name = some e)
    (names : List String)
    (w : World) :
    loadNames loader settings (name :: names) queue w =
      (.error e,
        (queue.loading loader settings).after [name] w) := by
  rcases Loading.fatal?_eq_some_iff.mp hFatal with
    ⟨hFound, hStops⟩
  have hSkips : queue.policy.skips settings e = false := hStops
  rw [Loading.after_single, Loading.said, Loading.verdict,
    Loading.question?, hFound]
  simp only [loadNames, Run.bind_apply, open?_apply queue,
    hFound, hSkips, hStops]
  rfl

/- So names that do not end the loading add their modules. -/
theorem loadNames_append
    (hPass :
      ∀ name ∈ before,
        (queue.loading loader settings).fatal? name = none)
    (names : List String)
    (w : World) :
    loadNames loader settings (before ++ names) queue w =
      loadNames loader settings names
        (queue.withModules
          (before.filterMap
            (queue.loading loader settings).module?))
        ((queue.loading loader settings).after before w) := by
  -- Each name makes another chain, which asks the same policy.
  induction before generalizing queue w with
  | nil => simp [withModules, Loading.after]
  | cons name before ih =>
      rcases List.forall_mem_cons.mp hPass with ⟨hFirst, hMore⟩
      let l := queue.loading loader settings
      let longer := queue.withModules (l.module? name).toList
      have hLonger :
          ∀ name ∈ before,
            (longer.loading loader settings).fatal? name = none :=
        hMore
      have hAdded :
          longer.withModules (before.filterMap l.module?) =
            queue.withModules
              ((name :: before).filterMap l.module?) := by
        rw [← withModules_append]
        cases hModule : l.module? name <;> simp [hModule]
      have hAfter :
          l.after (name :: before) w =
            l.after before (l.after [name] w) :=
        l.after_append [name] before w
      rw [List.cons_append, loadNames_cons_of_passes hFirst,
        ← hAdded]
      exact (ih hLonger (l.after [name] w)).trans
        (congrArg _ hAfter.symm)

/- If names end the loading, no more names are looked at. -/
theorem loadNames_of_error
    {w : World}
    {e : ModuleError}
    (hError :
      (loadNames loader settings before queue w).1 = .error e)
    (names : List String) :
    loadNames loader settings (before ++ names) queue w =
      loadNames loader settings before queue w := by
  induction before generalizing queue w with
  | nil => cases hError
  | cons name before ih =>
      rw [List.cons_append]
      cases hFatal :
          (queue.loading loader settings).fatal? name with
      | none =>
          rw [loadNames_cons_of_passes hFatal] at hError
          rw [loadNames_cons_of_passes hFatal,
            loadNames_cons_of_passes hFatal, ih hError]
      | some given =>
          rw [loadNames_cons_of_fatal hFatal,
            loadNames_cons_of_fatal hFatal]

/- What a loader has for other names makes no difference. -/
theorem loadNames_congr
    (hSame :
      ∀ name ∈ names,
        other (Library.path name settings.global.moduleDir) =
          loader (Library.path name settings.global.moduleDir))
    (queue : Queue) :
    loadNames other settings names queue =
      loadNames loader settings names queue := by
  induction names generalizing queue with
  | nil => rfl
  | cons name names ih =>
      rcases List.forall_mem_cons.mp hSame with ⟨hFirst, hMore⟩
      have hOpen :
          Library.open? other name settings.global.moduleDir =
            Library.open? loader name
              settings.global.moduleDir := by
        simp only [Library.open?, hFirst]
      simp only [loadNames, hOpen, ih hMore]

------------------------------------------------------------
-- All Names
------------------------------------------------------------

/- No name ends the loading. -/
theorem load_of_passes
    (hPass :
      ∀ name ∈ settings.global.modules,
        (queue.loading loader settings).fatal? name = none)
    (w : World) :
    queue.load loader settings w =
      (.ok
          (queue.withModules
            (settings.global.modules.filterMap
              (queue.loading loader settings).module?)),
        (queue.loading loader settings).after
          settings.global.modules w) := by
  have hAll := loadNames_append hPass [] w
  rw [List.append_nil] at hAll
  exact hAll

/- One does, after names that do not. -/
theorem loadNames_of_endsAt
    {e : ModuleError}
    (hEnds :
      (queue.loading loader settings).EndsAt before name e)
    (w : World) :
    loadNames loader settings (before ++ [name]) queue w =
      (.error e,
        (queue.loading loader settings).after
          (before ++ [name]) w) := by
  have hPass :
      ∀ earlier ∈ before,
        (queue.loading loader settings).fatal? earlier = none :=
    fun earlier hMem =>
      Loading.fatal?_eq_none_iff.mpr (hEnds.passed earlier hMem)
  let longer :=
    queue.withModules
      (before.filterMap (queue.loading loader settings).module?)
  have hFatal :
      (longer.loading loader settings).fatal? name = some e :=
    Loading.fatal?_eq_some_iff.mpr ⟨hEnds.failed, hEnds.stops⟩
  rw [loadNames_append hPass, loadNames_cons_of_fatal hFatal,
    Loading.after_append]
  rfl

/- The names after it make no difference. -/
theorem load_of_endsAt
    {e : ModuleError}
    (hEnds :
      (queue.loading loader settings).EndsAt before name e)
    (w : World) :
    queue.load loader settings w =
      (.error e,
        (queue.loading loader settings).after
          (before ++ [name]) w) := by
  have hTried := loadNames_of_endsAt hEnds w
  rcases hEnds.names with ⟨rest, hNames⟩
  have hSplit :
      settings.global.modules = before ++ [name] ++ rest :=
    hNames
  rw [load, hSplit,
    loadNames_of_error (congrArg Prod.fst hTried) rest, hTried]

/- Neither does what the loader has for them. -/
theorem load_congr_of_endsAt
    {e : ModuleError}
    (hEnds :
      (queue.loading loader settings).EndsAt before name e)
    (hSame :
      ∀ tried ∈ before ++ [name],
        other (Library.path tried settings.global.moduleDir) =
          loader
            (Library.path tried settings.global.moduleDir))
    (w : World) :
    queue.load other settings w =
      queue.load loader settings w := by
  have hTried := loadNames_of_endsAt hEnds w
  rw [← loadNames_congr hSame queue] at hTried
  rcases hEnds.names with ⟨rest, hNames⟩
  have hSplit :
      settings.global.modules = before ++ [name] ++ rest :=
    hNames
  rw [load_of_endsAt hEnds, load, hSplit,
    loadNames_of_error (congrArg Prod.fst hTried) rest, hTried]

/- So the loading succeeds if every name passes. -/
theorem exists_load_iff
    (w : World) :
    (∃ loaded, (queue.load loader settings w).1 = .ok loaded) ↔
      ∀ name ∈ settings.global.modules, ∀ e,
        (queue.loading loader settings).found name = .error e →
          queue.policy.skips settings e = true := by
  constructor
  · rintro ⟨loaded, hLoaded⟩
    rcases (queue.loading loader settings).passes_or_endsAt with
      hPass | ⟨before, name, e, hEnds⟩
    · exact fun name hMem =>
        Loading.fatal?_eq_none_iff.mp (hPass name hMem)
    · rw [load_of_endsAt hEnds] at hLoaded
      cases hLoaded
  · intro hSkips
    have hPass :
        ∀ name ∈ settings.global.modules,
          (queue.loading loader settings).fatal? name = none :=
      fun name hMem =>
        Loading.fatal?_eq_none_iff.mpr (hSkips name hMem)
    rw [load_of_passes hPass]
    exact ⟨_, rfl⟩

/-
  A chain is loaded if the policy passes over all errors. Then
  it has the modules that it had before and those of the names
  that could be loaded, in the order of the names. If it is
  not loaded, the error is that of the first name that the
  policy does not pass over. The policy was asked about no
  later name, and none was opened.
-/
theorem load_in_order
    (queue : Queue)
    (loader : Loader)
    (settings : Settings)
    (w : World) :
    let l := queue.loading loader settings
    let names := settings.global.modules
    let result := queue.load loader settings w
    ((∃ loaded, result.1 = .ok loaded) ↔
        ∀ name ∈ names, ∀ e, l.found name = .error e →
          queue.policy.skips settings e = true) ∧
      (∀ loaded, result.1 = .ok loaded →
        loaded = queue.withModules (names.filterMap l.module?) ∧
          loaded.modules.map Module.name =
            queue.modules.map Module.name ++
              names.filter (fun name => (l.module? name).isSome) ∧
          result.2 = l.after names w) ∧
      (∀ e, result.1 = .error e →
        ∃ before name,
          l.EndsAt before name e ∧
            e.module = name ∧
            result.2 = l.after (before ++ [name]) w ∧
            ∀ other : Loader,
              (∀ tried ∈ before ++ [name],
                other (l.path tried) = loader (l.path tried)) →
                queue.load other settings w = result) ∧
      ∀ policy ∈ [Smtp.policy, Pipe.policy], ∀ e,
        policy.skips settings e = true ↔
          settings.global.moduleFail = 1 := by
  intro l names result
  refine ⟨exists_load_iff w, ?_, ?_, ?_⟩
  · intro loaded hLoaded
    rcases l.passes_or_endsAt with
      hPass | ⟨before, name, e, hEnds⟩
    · have hLoad :
          result =
            (.ok (queue.withModules (names.filterMap l.module?)),
              l.after names w) :=
        load_of_passes hPass w
      rw [hLoad] at hLoaded
      cases hLoaded
      refine ⟨rfl, ?_, by rw [hLoad]⟩
      rw [withModules, List.map_append, l.map_name_module?]
    · have hLoad : result = (.error e, _) :=
        load_of_endsAt hEnds w
      rw [hLoad] at hLoaded
      cases hLoaded
  · intro e hError
    rcases l.passes_or_endsAt with
      hPass | ⟨before, name, given, hEnds⟩
    · have hLoad :
          result =
            (.ok (queue.withModules (names.filterMap l.module?)),
              l.after names w) :=
        load_of_passes hPass w
      rw [hLoad] at hError
      cases hError
    · have hLoad :
          result = (.error given, l.after (before ++ [name]) w) :=
        load_of_endsAt hEnds w
      rw [hLoad] at hError
      cases hError
      exact ⟨before, name, hEnds,
        Loading.module_of_found hEnds.failed, by rw [hLoad],
        fun other hSame => load_congr_of_endsAt hEnds hSame w⟩
  · intro policy hMem e
    simp only [List.mem_cons, List.not_mem_nil, or_false] at hMem
    rcases hMem with rfl | rfl
    · exact beq_iff_eq
    · exact beq_iff_eq

/-
  Of three names one cannot be loaded, and one is loaded
  twice. With another setting the loading ends there.
-/
theorem load_in_order_repeated :
    let loader : Loader := fun path =>
      if path = "libgood.so" then
        .entry fun _ t files => (0, t, files)
      else
        .unusable "no such file"
    let settings : Settings := {
      global := {
        modules := ["good", "gone", "good"]
        moduleFail := 1 } }
    let strict : Settings := {
      global := {
        modules := ["good", "gone", "good"]
        moduleFail := 3 } }
    let queue : Queue := { policy := Smtp.policy }
    (∃ loaded,
        (queue.load loader settings {}).1 = .ok loaded ∧
          loaded.modules.map Module.name = ["good", "good"]) ∧
      ∃ before name,
        (queue.loading loader strict).EndsAt before name
            (.load "gone" "no such file") ∧
          name = "gone" := by
  intro loader settings strict queue
  rcases load_in_order queue loader settings {} with
    ⟨hLoads, hLoaded, -, -⟩
  rcases load_in_order queue loader strict {} with
    ⟨-, -, hFailed, -⟩
  have hSkips :
      ∀ name ∈ settings.global.modules, ∀ e,
        (queue.loading loader settings).found name = .error e →
          queue.policy.skips settings e = true :=
    fun _ _ _ _ => rfl
  rcases hLoads.mpr hSkips with ⟨loaded, hOk⟩
  rcases hFailed (.load "gone" "no such file") rfl with
    ⟨before, name, hEnds, hName, -⟩
  exact ⟨⟨loaded, hOk, (hLoaded loaded hOk).2.1⟩,
    before, name, hEnds, hName.symm⟩

end Queue

end MailFilter
