import MailFilter.Server.Pool
import MailFilter.Smtp.Connection

/-
  This file defines the SMTP engine, which serves connections
  until it is told to stop.

  Key definitions include:
    * `Server.Client`
    * `Server.serveAll`
    * `Server.run`
-/

namespace MailFilter.Server

open World

/- A client: where it is from and what it sends. -/
structure Client where
  peer : String
  input : Smtp.Inbound

/-
  Serve clients one after the other. Gives for each one what
  it was sent, with the newest line first.
-/
def serveAll
    (service : Smtp.Service) :
    List Client → Run (List (List Bytes))
  | [] => return []
  | client :: rest => do
      emit {
        span := .incoming
        level := .debug
        text := "Connection from " ++ client.peer }
      let (_, written) ← Smtp.run service client.input none
      let others ← serveAll service rest
      return written :: others

/- The numbers of the workers of a pool. -/
def workers
    (service : Smtp.Service) : List Nat :=
  List.range
    (@Pool.create Client
      service.settings.smtpd.workers).size

/- Serve clients at an address until the engine is stopped. -/
def run
    (service : Smtp.Service)
    (address : String)
    (clients : List Client) : Run (List (List Bytes)) := do
  let workers := workers service
  workers.forM fun n =>
    say .trace ("Worker " ++ toString n ++ " started")
  say .info
    ("Listening on " ++ address ++ " with " ++
      toString workers.length ++ " workers")
  let outputs ← serveAll service clients
  say .info
    ("Listener " ++ address ++
      " received shutdown signal, finishing sessions ...")
  workers.forM fun n =>
    say .trace ("Worker " ++ toString n ++ " stopped")
  say .info ("Listener " ++ address ++ " stopped")
  return outputs

end MailFilter.Server
