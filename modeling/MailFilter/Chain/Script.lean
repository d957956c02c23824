import MailFilter.Chain.Module
import MailFilter.Message.Edit

/-
  This file defines modules that follow a script.

  Key definitions include:
    * `Action`
    * `Action.run`
    * `Module.scripted`
-/

namespace MailFilter

/- What a module can do to a transaction and the files. -/
inductive Action where
  /- Change the header of the message, if there is one. -/
  | edit (change : Message.Edit)
  | responseMsg (text : Option String)
  | reply (code : Nat) (text : String)
  | sender (address : Option String)
  | recipients (addresses : List String)
  | dropMessage
  /- Remove the spool file from the disk. -/
  | deleteSpool
  /- Give a directory another name. -/
  | renameDirectory (source target : String)
  /- Write the spool file, with or without a trace. -/
  | write (content : Bytes) (keepStamp : Bool)
deriving DecidableEq

namespace Action

/- Carry out an action. -/
def run
    (action : Action)
    (state : Transaction × Files) : Transaction × Files :=
  let (t, files) := state
  let path := t.envelope.messageFile
  match action with
  | .edit change => (t.mapMessage change.apply, files)
  | .responseMsg text => ({ t with responseMsg := text }, files)
  | .reply code text =>
      ({ t with reply := some ⟨.ofCode code, text⟩ }, files)
  | .sender address =>
      ({ t with
          envelope := { t.envelope with sender := address } },
        files)
  | .recipients addresses =>
      ({ t with
          envelope :=
            { t.envelope with recipients := addresses } },
        files)
  | .dropMessage => (t.withMessage none, files)
  | .deleteSpool => (t, files.drop path)
  | .renameDirectory source target =>
      (t, files.renameDirectory source target)
  | .write content keepStamp =>
      (t, files.overwrite path content keepStamp)

end Action

/-
  The module that carries out actions in order and returns a
  value.
-/
def Module.scripted
    (name : String)
    (actions : List Action)
    (value : Int) : Module where
  name := name
  run := fun _ t files =>
    let (t, files) :=
      actions.foldl (fun state action => action.run state)
        (t, files)
    (value, t, files)

end MailFilter
