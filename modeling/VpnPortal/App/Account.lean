/-
The account's state and the order of operations around it
(`state/AccountModel.kt`), and the switch of the main screen
(`ui/main/Connection.kt`).

The model is one value that the screens show, replaced whole on every change;
blocking work goes to the session and to the tunnel. Calls to the tunnel succeed
here: what they do when they fail is nothing.

* `update`, `tunnelUp`, `tunnelDown`: the steps outside the session;
* `load`, `failed`: a failure may read the account again, but not inside `load`;
* `use` … `signOut`: the operations; `Account.Op`: the operations as data, with
  the user connecting and disconnecting.
-/
import VpnPortal.App.Session

namespace VpnPortal.App

open Sessions Sessions.Proc

/-! ### The screens and the tunnel -/

namespace Phone

def shows (f : AccountUi → AccountUi) (s : Phone) : Phone := { s with ui := f s.ui }

/-- `tunnel.up` -/
def up (conf : String) (s : Phone) : Phone :=
  { s with tunnel := some conf, log := s.log ++ [.tunnelUp conf] }

/-- `tunnel.down` -/
def down (s : Phone) : Phone := { s with tunnel := none, log := s.log ++ [.tunnelDown] }

end Phone

/-- `state.update` -/
def update (f : AccountUi → AccountUi) : Code Unit := change (Phone.shows f)

def tunnelUp (conf : String) : Code Unit := change (Phone.up conf)

def tunnelDown : Code Unit := change Phone.down

/-- `tunnel.isUp` -/
def isUp : Code Bool := look fun s => s.tunnel.isSome

namespace Account

variable (D : Decoders)

/-- `failed`; `reload` is `load`, or nothing inside `load` itself. -/
def failedWith (reload : Option (Code Unit)) (e : ApiError) (action : Action) : Code Unit := do
  if e = .unauthorized then
    update fun ui => { ui with signedOut := some ⟨some "Сессия истекла — войдите снова"⟩ }
  else do
    let up ← isUp
    update fun ui => { ui with error := some (describe e action up) }
    match reload with
    | none => return
    | some load =>
        if e = .notFound then do
          let kept ← look fun s => s.ui.error
          load
          update fun ui => { ui with error := kept }
        else return

/-- `askTrialOffer` -/
def askTrialOffer (profile : Profile) : Code Unit := do
  let asked ← look fun s => s.ui.trialOffer
  if asked.isSome then return
  else
    let state := profile.trial.bind TrialInfo.state
    if state ≠ some "available" ∧ state ≠ some "needs_verify" then return
    else
      match ← trialOffer D with
      | .ok offer => update fun ui => { ui with trialOffer := some offer }
      | .failed _ => return

/-- The list of an account with access. -/
def loadDevices (had : Option Selected) : Code Unit := do
  match ← Session.devices D with
  | .ok list => do
      let now ← Session.selected
      if had.isSome ∧ now = none then do
        tunnelDown
        update fun ui => { ui with notice := some deviceGone }
        update fun ui => { ui with devices := some list, selected := now }
      else update fun ui => { ui with devices := some list, selected := now }
  | .failed e => do
      update fun ui => { ui with devices := none }
      failedWith none e .load

/-- `load` -/
def load : Code Unit := do
  update fun ui => { ui with error := none }
  let had ← Session.selected
  update fun ui => { ui with selected := had }
  match ← Session.profile D with
  | .failed e => failedWith none e .load
  | .ok p => do
      update fun ui => { ui with profile := some p }
      match ← look fun s => s.ui.profile with
      | none => return
      | some profile =>
          let now ← ask fun i => i.now
          if profile.hasAccessAt D now then loadDevices D had
          else do
            update fun ui => { ui with devices := none }
            askTrialOffer D profile

/-- `failed` -/
def failed (e : ApiError) (action : Action) : Code Unit := failedWith (some (load D)) e action

/-- `refreshSelected` -/
def refreshSelected : Code Unit := do
  let s ← Session.selected
  update fun ui => { ui with selected := s }

/-- `followSelection` -/
def followSelection : Code Unit := do
  if !(← isUp) then return
  else
    match ← Session.storedConfig with
    | some conf => tunnelUp conf
    | none => return

/-- `work` -/
def work {α : Type} (block : Code α) : Code α := do
  update fun ui => { ui with busy := true, error := none }
  let a ← block
  update fun ui => { ui with busy := false }
  return a

/-- `use` -/
def use (device : Device) : Code Unit := work do
  match ← Session.select D device with
  | .ok _ => do
      update fun ui => { ui with notice := none }
      refreshSelected
      followSelection
  | .failed e => failed D e .load

/-- A device just added or granted is meant for this phone. -/
def selectNew (device : Device) (action : Action) : Code Unit := do
  match ← Session.select D device with
  | .ok _ => do
      update fun ui => { ui with notice := none }
      followSelection
  | .failed e => failed D e action

/-- The work of `add`: whether a device was added. -/
def addWork (name : String) : Code Bool := do
  match ← Session.addDevice D name with
  | .ok device => do
      selectNew D device .load
      return true
  | .failed e => do
      failed D e .load
      return false

/-- `add`: a problem with the name, or nothing once sent. -/
def add (name : String) : Code (Option String) :=
  match validateDeviceName name with
  | some problem => return some problem
  | none => do
      let added ← work (addWork D name)
      let out ← look fun s => s.ui.signedOut
      if added ∧ out = none then do
        load D
        return none
      else return none

/-- The work of `rename`: whether it was done. -/
def renameWork (device : Device) (name : String) : Code Bool := do
  match ← Session.renameDevice D device.id name with
  | .ok _ => do
      refreshSelected
      return true
  | .failed e => do
      failed D e .load
      return false

/-- `rename` -/
def rename (device : Device) (name : String) : Code (Option String) :=
  match validateDeviceName name with
  | some problem => return some problem
  | none => do
      let ok ← work (renameWork D device name)
      if ok then do
        load D
        return none
      else return none

/-- The request of `delete` and what follows it. -/
def deleteRequest (device : Device) : Code Bool := do
  match ← Session.deleteDevice D device.id with
  | .ok _ => do
      refreshSelected
      return true
  | .failed e => do
      failed D e .delete
      return false

/-- The work of `delete`: down first, then the request. -/
def deleteWork (device : Device) (onThisPhone : Bool) : Code Bool :=
  if onThisPhone then do
    tunnelDown
    deleteRequest D device
  else deleteRequest D device

/-- `delete` -/
def delete (device : Device) : Code Unit := do
  let shown ← look fun s => s.ui.selected
  update fun ui => { ui with notice := none }
  let ok ← work (deleteWork D device (shown.map Selected.id == some device.id))
  if ok then load D else return

/-- The work of `startTrial`: whether the profile is read again. -/
def trialWork : Code Bool := do
  match ← Session.startTrial D with
  | .ok device => do
      selectNew D device .trial
      return true
  | .failed e => do
      failed D e .trial
      return match e with
        | .conflict _ => true
        | _ => false

/-- `startTrial` -/
def startTrial : Code Unit := do
  let reload ← work (trialWork D)
  let out ← look fun s => s.ui.signedOut
  if reload ∧ out = none then do
    let kept ← look fun s => s.ui.error
    load D
    update fun ui => { ui with error := kept.or ui.error }
  else return

/-- The work of `resendConfirmation`: whether the address is confirmed already. -/
def resendWork : Code Bool := do
  match ← Session.resendVerification D with
  | .ok confirmed =>
      if confirmed then return true
      else do
        update fun ui => { ui with notice := some letterSent }
        return false
  | .failed e => do
      failed D e .resend
      return false

/-- `resendConfirmation` -/
def resendConfirmation : Code Unit := do
  update fun ui => { ui with notice := none }
  let confirmed ← work (resendWork D)
  if confirmed then load D else return

/-- `checkRelease` -/
def checkRelease : Code Unit := do
  let known ← look fun s => s.ui.release
  if known.isSome then return
  else
    match ← latestRelease D with
    | .ok release => update fun ui => { ui with release := some release }
    | .failed _ => return

/-- `signOut`: down first, then the wipe. -/
def signOut : Code Unit := do
  tunnelDown
  Session.signOut D
  update fun ui => { ui with signedOut := some ⟨none⟩ }

/-- `dismissNotice` -/
def dismissNotice : Code Unit := update fun ui => { ui with notice := none }

/-- The switch is pressed while the tunnel is down, or for a reconnect. -/
def connect : Code Unit := do
  match ← Session.storedConfig with
  | some conf => tunnelUp conf
  | none => return

/-- The operations of the model, and what the user does with the switch. -/
inductive Op where
  | load
  | use (device : Device)
  | add (name : String)
  | rename (device : Device) (name : String)
  | delete (device : Device)
  | startTrial
  | resendConfirmation
  | checkRelease
  | signOut
  | dismissNotice
  | connect
  | disconnect

def Op.run : Op → Code Unit
  | .load => Account.load D
  | .use device => Account.use D device
  | .add name => (fun _ => ()) <$> Account.add D name
  | .rename device name => (fun _ => ()) <$> Account.rename D device name
  | .delete device => Account.delete D device
  | .startTrial => Account.startTrial D
  | .resendConfirmation => Account.resendConfirmation D
  | .checkRelease => Account.checkRelease D
  | .signOut => Account.signOut D
  | .dismissNotice => Account.dismissNotice
  | .connect => Account.connect
  | .disconnect => tunnelDown

end Account

end VpnPortal.App
