import Bosh.Socket.Net

/-! `socket_monitor.c`; the callbacks that the loop of `sm_poll` runs come later. -/
namespace Bosh
open Effect

def smAddSocket (socketFd : Int) (callback : MonitorCallback) (userData : SocketId)
    (events : Events) : NetM InfoId := do
  let n ← get
  -- a record is kept for ever and used again for the same descriptor number
  let si ← match n.socketHash.find socketFd with
    | some si => pure si
    | none =>
      match n.socketHash.insert socketFd n.nextInfo with
      | none => throw .outOfBounds
      | some socketHash => do
        set { n with socketHash, nextInfo := n.nextInfo + 1 }
        pure n.nextInfo
  modify (Net.setInfo si {
    callback := some callback, userData := some userData, events, socketFd,
    registration := n.registrations })
  modify fun n => { n with
    socketCount := n.socketCount + 1
    registrations := n.registrations + 1 }
  modify (Net.epollAdd socketFd events si)
  pure si

def smAddEvents (si : Option InfoId) (events : Events) : NetM Unit := do
  let (si, info) ← getInfo si
  if info.events.inter events = events then pure ()
  else
    let info := { info with events := info.events.union events }
    modify (Net.setInfo si info)
    modify (Net.epollMod info.socketFd info.events si)

def smDelEvents (si : Option InfoId) (events : Events) : NetM Unit := do
  let (si, info) ← getInfo si
  let info := { info with events := info.events.diff events }
  modify (Net.setInfo si info)
  modify (Net.epollMod info.socketFd info.events si)

/-- The record stays in the hash: `sm_poll` may still hold a pointer to it. -/
def smDelSocket (si : Option InfoId) : NetM Unit := do
  let (si, info) ← getInfo si
  modify (Net.epollDel info.socketFd)
  modify (Net.setInfo si { info with events := .none, callback := none, userData := none })
  modify fun n => { n with socketCount := n.socketCount - 1 }

def maxEvents : Nat := 1024

/-- `epoll_wait`: the events the kernel reports, each with the data registered for its
descriptor. A report is about distinct descriptors that are registered, and about the
events asked for, errors and hang-ups. -/
def epollWait (ready : List (Int × Events)) (n : Net) : Except Fault (List (InfoId × Events)) :=
  if ready.length ≤ maxEvents ∧ (ready.map Prod.fst).Nodup then
    ready.mapM fun event =>
      match n.interest event.1 with
      | none => .error .impossible
      | some (mask, si) =>
        if event.2.input ≤ mask.input ∧ event.2.output ≤ mask.output then .ok (si, event.2)
        else .error .impossible
  else .error .impossible

/-- The test in the loop of `sm_poll`: the callback for an event and its data. -/
def smTarget (si : InfoId) : NetM (Option (MonitorCallback × Option SocketId)) := do
  let (_, info) ← getInfo (some si)
  pure (info.callback.map fun callback => (callback, info.userData))

end Bosh
