import EngineShell.Host.Basic

/-!
# What a host does

The host's answers to events, to commands, to outcomes and to the end of an attempt to open, as
turns of the presentation thread. A turn may post tasks: the outcomes of the sessions it ends.
-/

namespace EngineShell

/-- The host within a turn, and the tasks posted so far. -/
structure Turn where
  host : Host
  posts : List HostTask := []

namespace Turn

def modify (t : Turn) (f : Host → Host) : Turn :=
  { t with host := f t.host }

/-- Post the outcome that an attempt delivers, if it does. -/
def postOutcome (t : Turn) (attempt : Nat) (delivered : Option Outcome) : Turn :=
  { t with posts := t.posts ++ delivered.toList.map (.outcome attempt) }

def finish (t : Turn) (s : Session) (o : Outcome) : Turn :=
  let (delivered, _, platform) := s.finish t.host.platform o
  (t.modify fun h => { h with platform }).postOutcome s.sink delivered

/-- End the current session with an outcome, or hold the outcome while the session is opening. The
first one held stays. -/
def terminate (t : Turn) (o : Outcome) : Turn :=
  match t.host.slot with
  | .idle => t
  | .opening held => t.modify fun h => { h with slot := .opening (held.or (some o)) }
  | .live session =>
    ((t.modify fun h => { h with slot := .idle }).finish session o).modify fun h =>
      h.present fun p => { p with overlayAttached := false }

end Turn

namespace Host

/-- The record to start from: the one of the data directory if there is one, else the one in
memory. What cannot be loaded counts as missing. -/
def restored (h : Host) : Option SavedRecord :=
  match h.dataDir with
  | none => h.saved
  | some dir => (dir.loadRecord h.disk).toOption.join

/-- The stored texts for the form. What cannot be read counts as missing. -/
def prefill (h : Host) : Prefill :=
  (h.store.prefill h.disk).toOption.getD {}

/-- Bring the form up. Only the first time counts. -/
def onCreate (h : Host) : Host :=
  if h.created then h
  else { h with created := true, login := h.login.start h.restored h.prefill }

/-- Assert immersive fullscreen for a live session. -/
def onDisplayModeLost (h : Host) : Host :=
  match h.slot with
  | .live session => { h with platform := session.reassert h.platform }
  | _ => h

/-- Run a layout pass of a live session. -/
def onLayoutSettled (h : Host) : Host :=
  match h.slot with
  | .live session => { h with platform := (session.layoutPass h.platform).2 }
  | _ => h

/-- Pass a change of the bars on to a live session. -/
def onChrome (h : Host) (flags : ChromeFlags) : Host :=
  match h.slot with
  | .live session => { h with platform := (session.onChrome h.platform flags).2 }
  | _ => h

/-- Save the record, in memory and in the data directory if there is one. A directory that cannot
be written does not matter. -/
def onSaveState (h : Host) : Host :=
  let record := h.login.save
  let disk := match h.dataDir with
    | none => h.disk
    | some dir => ((dir.saveRecord h.disk record).toOption).getD h.disk
  { h with disk, saved := some record }

/-- Put an end to whatever the slot holds. -/
def dropSlot (h : Host) : Host :=
  match h.slot with
  | .live session => { h with platform := (session.teardown h.platform).2.2 }
  | _ => h

/-- Start an attempt: a new sink, fresh widgets, and a worker that opens the session. -/
def launch (h : Host) (c : Credentials) : Host :=
  let attempt := h.platform.sinks.length
  let session : Session := { sink := attempt, layout := h.layout, params := h.params }
  let h := { h with platform := h.platform.addSink {}, dispatching := some attempt }
  let h := h.present fun p => { p with overlay := .forLayout h.layout, phase := .opening }
  let h := h.dropSlot
  { h with
    slot := .opening none
    workers := h.workers ++ [{ session, credentials := c }] }

/-- Take a submission and start an attempt with it. -/
def onLoginClicked (h : Host) (c : Credentials) : Host :=
  if !h.created || h.destroyed then h
  else
    match h.login.submit c with
    | .ok login => { h with login }.launch c
    | .error _ => h

/-- Keep the credentials that the engine accepted. A store that cannot be written does not
matter. -/
def persist (h : Host) (c : Credentials) : Host :=
  match h.store.persist h.disk c with
  | .ok (store, disk) => { h with store, disk }
  | .error _ => h

/-- The record of what an observer sees. -/
def observe (h : Host) (label : String) (e : HostEvent) : Host :=
  { h with observed := h.observed ++
      [⟨label, e.kind, h.slot.phase, h.exitRequested⟩] }

end Host

namespace Turn

/-- Back ends a session normally; without one it leaves the host. -/
def onBack (t : Turn) : Turn :=
  match t.host.slot with
  | .idle => t.modify fun h => { h with exitRequested := true }
  | _ => t.terminate .success

/-- The host goes away, and with it the session. -/
def onDestroy (t : Turn) : Turn :=
  (t.modify fun h => { h with destroyed := true, exitRequested := true }).terminate .success

def handle (t : Turn) (e : HostEvent) : Turn :=
  match e with
  | .create => t.modify (·.onCreate)
  | .resume => t.modify (·.onDisplayModeLost)
  | .windowFocusChanged focused => if focused then t.modify (·.onDisplayModeLost) else t
  | .layoutSettled => t.modify (·.onLayoutSettled)
  | .chromeVisibilityChanged flags => t.modify (·.onChrome flags)
  | .backPressed => t.onBack
  | .destroy => t.onDestroy
  | .saveState => t.modify (·.onSaveState)
  | .fieldsEdited fields => t.modify fun h => { h with login := h.login.edit fields }
  | .loginClicked c => t.modify (·.onLoginClicked c)
  | .iconTapped time => t.modify fun h => { h with login := (h.login.tap time).2 }
  | .quitClicked => t.modify fun h => { h with exitRequested := true }

/-- A command that was posted is carried out while a session is there. -/
def onCommand (t : Turn) (c : Command) : Except Violation Turn :=
  if t.host.slot = .idle then .ok (t.modify (·.count .afterClose))
  else
    match t.host.dispatching with
    | none => .ok t
    | some attempt =>
      let finishing := (t.host.platform.sink attempt).finishing
      match t.host.shown.overlay.apply t.host.policy finishing c with
      | .error v => .error v
      | .ok (d, overlay) =>
        let t := t.modify fun h => h.present fun p => { p with overlay }
        match d with
        | .applied => .ok (t.modify (·.count .applied))
        | .ignored => .ok (t.modify (·.count .ignored))
        | .rejected _ => .ok (t.modify (·.count .rejected))
        | .query _ => .ok (t.modify (·.count .query))
        | .terminate o => .ok ((t.modify (·.count .applied)).terminate o)

/-- The outcome of a session is shown, and its commands are carried out no longer. -/
def onOutcome (t : Turn) (o : Outcome) : Turn :=
  t.modify fun h => { h with dispatching := none, login := h.login.onOutcome o }

/-- A session that is open goes live, unless a termination was held for it. -/
def enterLive (t : Turn) (held : Option Outcome) (s : Session) : Turn :=
  match held with
  | some o => t.finish s o
  | none =>
    t.modify fun h =>
      let h := h.present fun p => { p with phase := .live, overlayAttached := true }
      { h with platform := (s.layoutPass h.platform).2, slot := .live s }

/-- An attempt to open has ended. One that nobody waits for is torn down. -/
def onOpened (t : Turn) (s : Session) (failure : Option Outcome) (c : Credentials) : Turn :=
  match t.host.slot with
  | .opening held =>
    let t := t.modify fun h => { h with slot := .idle }
    let t := if s.accepted then t.modify (·.persist c) else t
    match failure with
    | some _ => t.modify fun h => { h with platform := (s.teardown h.platform).2.2 }
    | none => t.enterLive held s
  | _ => t.modify fun h => { h with platform := (s.teardown h.platform).2.2 }

end Turn

namespace Host

/-- The host's own handlers, one for each kind of event. -/
def standardHooks : Hooks Turn :=
  EventKind.all.foldl (fun hooks kind => hooks.on kind Turn.handle) {}

def observer (label : String) (t : Turn) (e : HostEvent) : Turn :=
  t.modify fun h => h.observe label e

/-- The handlers of a host: its own, and after them the observers. -/
def hooks (h : Host) : Hooks Turn :=
  h.observers.foldl (fun hooks o => hooks.on o.1 (observer o.2)) standardHooks

/-- Handle an event. The first answer is how many handlers ran. -/
def handle (h : Host) (e : HostEvent) : Nat × Turn :=
  h.hooks.dispatch { host := h } e

end Host

end EngineShell
