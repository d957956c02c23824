import MailFilter.Chain.Flush
import MailFilter.Chain.Library
import MailFilter.Delivery.Nexthop

/-
  This file defines the chain of modules and how a message
  goes through it.

  The modules run in order until one returns a value other
  than zero. Then the policy decides whether processing
  stops. If it does not, the headers are written back and the
  message is handed on.

  Key definitions include:
    * `Queue`
    * `Queue.load`
    * `Queue.fetchUsers`
    * `Queue.runModules`
    * `Queue.process`
    * `Queue.unload`
-/

namespace MailFilter

open World

/- A chain of modules with its policy and look-up backend. -/
structure Queue where
  modules : List Module := []
  policy : Policy
  lookup : Lookup := Lookup.nobody

namespace Queue

------------------------------------------------------------
-- Loading
------------------------------------------------------------

/-
  Load modules one after the other and add them to a chain.
  Ends with the first error that the policy does not pass
  over.
-/
def loadNames
    (loader : Loader)
    (settings : Settings) :
    List String → Queue → Run (Except ModuleError Queue)
  | [], queue => return .ok queue
  | name :: names, queue => do
      match ←
        Library.open? loader name settings.global.moduleDir with
      | .ok m =>
          say .info ("Loaded module " ++ m.label)
          loadNames loader settings names
            { queue with modules := queue.modules ++ [m] }
      | .error e =>
          let skipped := queue.policy.skips settings e
          record (.unloadable e skipped)
          if skipped then
            say .warn (e.text ++ ", skipping")
            loadNames loader settings names queue
          else
            say .error e.text
            return .error e

/- Load the modules that the settings name. -/
def load
    (queue : Queue)
    (loader : Loader)
    (settings : Settings) : Run (Except ModuleError Queue) :=
  loadNames loader settings settings.global.modules queue

/- Release all modules. -/
def unload
    (queue : Queue) : Run Unit :=
  queue.modules.forM Module.release

/- A chain shown with its modules. -/
def listing
    (queue : Queue) : String :=
  "ProcessQueue \x7b modules: [" ++
    ", ".intercalate (queue.modules.map Module.listing) ++
    "], .. \x7d"

------------------------------------------------------------
-- Users
------------------------------------------------------------

/- Remember the answer for an address. -/
def remember
    (users : List (String × Option UserRecord))
    (address : String)
    (answer : Option UserRecord) :
    List (String × Option UserRecord) :=
  (address, answer) :: users.filter (·.1 != address)

/- The addresses of an envelope that are not known yet. -/
def unknownAddresses
    (t : Transaction) : List String :=
  (t.envelope.sender.toList ++ t.envelope.recipients).filter
    fun address =>
      !address.isEmpty && (t.users.lookup address).isNone

/- Ask about addresses. A failure is logged and passed over. -/
def askAll
    (lookup : Lookup) :
    List String → Transaction → Run Transaction
  | [], t => return t
  | address :: rest, t => do
      record (.asked address)
      match lookup address with
      | .ok answer =>
          askAll lookup rest
            { t with users := remember t.users address answer }
      | .error e =>
          say .warn e.text
          askAll lookup rest t

/-
  Ask about the sender and all recipients that are not known
  yet.
-/
def fetchUsers
    (queue : Queue)
    (t : Transaction) : Run Transaction :=
  askAll queue.lookup (unknownAddresses t) t

------------------------------------------------------------
-- Processing
------------------------------------------------------------

/- The header that lists the modules that ran. -/
def traceHeader : String :=
  "X-Spmfilter"

/-
  Run modules up to the first one that returns a value other
  than zero. Gives what the policy made of that value, the
  names of the modules that ran, and the transaction. The
  names before are given in reverse.
-/
def runModules
    (queue : Queue)
    (settings : Settings)
    (names : List String) :
    List Module → Transaction →
      Run (Option Outcome × List String × Transaction)
  | [], t => return (none, names.reverse, t)
  | m :: rest, t => do
      sayOf .debug t ("Invoking module " ++ m.label)
      let (value, t) ← m.invoke settings t
      let names := m.name :: names
      if value = 0 then
        runModules queue settings names rest t
      else
        let (outcome, t) := queue.policy.judge settings t value
        record (.judged value outcome)
        sayOf .info t
          ("Module " ++ m.label ++ " returned " ++ toString value ++
            ": " ++ outcome.name)
        return (some outcome, names.reverse, t)

/- Add the header that lists modules, if that is wanted. -/
def markModules
    (settings : Settings)
    (names : List String)
    (t : Transaction) : Transaction :=
  if settings.global.addHeader then
    t.mapMessage
      (·.appendHeader traceHeader
        ("processed " ++ ",".intercalate names))
  else
    t

/- Hand the message on, if there is a nexthop. -/
def handOn
    (queue : Queue)
    (settings : Settings)
    (t : Transaction) : Run Transaction := do
  match Nexthop.find? (← get).files settings with
  | none => return t
  | some nexthop =>
      let (result, t) ← nexthop.deliver t
      match result with
      | .ok () =>
          sayOf .info t ("Delivered to " ++ nexthop.render)
          return t
      | .error e =>
          sayOf .error t
            ("Delivery to " ++ nexthop.render ++ " failed: " ++
              e.text)
          record (.undelivered e)
          return queue.policy.undelivered settings t e

/-
  What is left when the modules have run: to list them, to
  write the headers back, and to hand the message on.
-/
def finish
    (queue : Queue)
    (settings : Settings)
    (before : Snapshot)
    (names : List String)
    (disposition : Disposition)
    (t : Transaction) :
    Run (Except SpoolError Disposition × Transaction) := do
  let t := markModules settings names t
  let (result, t) ← Chain.flush before settings t
  match result with
  | .error e => return (.error e, t)
  | .ok _ =>
      let t ← handOn queue settings t
      return (.ok disposition, t)

/- Send the message of a transaction through the chain. -/
def process
    (queue : Queue)
    (settings : Settings)
    (t : Transaction) :
    Run (Except SpoolError Disposition × Transaction) := do
  let before := Snapshot.take t.message
  let t ← queue.fetchUsers t
  let (outcome, names, t) ←
    queue.runModules settings [] queue.modules t
  match outcome with
  | some .abort => return (.ok .aborted, t)
  | some .stopAccept => return (.ok .accepted, t)
  | some .carryOn =>
      queue.finish settings before names .stopped t
  | none => queue.finish settings before names .completed t

end Queue

end MailFilter
