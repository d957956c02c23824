import MailFilter.Pipe
import MailFilter.Server.Basic

/-
  This file defines how the filter as a whole is run: it
  loads the chain of modules and runs the configured engine
  with it.

  Key definitions include:
    * `Controller`
    * `Controller.Result`
    * `Controller.queue`
    * `Controller.run`
-/

namespace MailFilter

open World

/-
  The settings, the modules that are part of the program, and
  the loader for those in libraries.
-/
structure Controller where
  settings : Settings
  modules : List Module := []
  loader : Loader

/- What the engines read. -/
structure Controller.Input where
  standard : Pipe.Input
  clients : List Server.Client := []

/-
  How a run ended: the exit status, and what each client was
  sent, with the newest line first.
-/
structure Controller.Result where
  status : Int
  outputs : List (List Bytes) := []

namespace Controller

/- The chain of modules, with a policy. -/
def queue
    (c : Controller)
    (policy : Policy) : Run (Except ModuleError Queue) := do
  let queue : Queue := {
    modules := c.modules
    policy := policy
    lookup := Lookup.ofUsers c.settings.users }
  match ← queue.load c.loader c.settings with
  | .error e => return .error e
  | .ok queue =>
      say .info
        ("Module chain: [" ++
          ", ".intercalate (queue.modules.map Module.name) ++
          "]")
      return .ok queue

/- Run the SMTP engine. -/
def runSmtpd
    (c : Controller)
    (clients : List Server.Client) :
    Run (Except ModuleError Result) := do
  match ← c.queue Smtp.policy with
  | .error e => return .error e
  | .ok queue =>
      let hostname := (← get).machine
      let outputs ←
        Server.run ⟨c.settings, queue, hostname⟩
          c.settings.smtpd.socket clients
      say .info "Shutting down..."
      queue.unload
      return .ok ⟨0, outputs⟩

/- Run the pipe engine. -/
def runPipe
    (c : Controller)
    (input : Pipe.Input) : Run (Except ModuleError Result) := do
  match ← c.queue Pipe.policy with
  | .error e => return .error e
  | .ok queue =>
      let result ← Pipe.run c.settings queue input
      queue.unload
      let status :=
        match result with
        | .error _ => 1
        | .ok disposition => Pipe.exitCode disposition
      return .ok { status := status }

/- Run the configured engine. -/
def run
    (c : Controller)
    (input : Input) : Run (Except ModuleError Result) := do
  say .trace "Controller running"
  match c.settings.global.engine with
  | .smtpd => c.runSmtpd input.clients
  | .pipe => c.runPipe input.standard

end Controller

end MailFilter
