import Bosh.Server.State

/-! The two functions of `http_server.c` that the bind layer calls. -/
namespace Bosh
open Effect Text

def httpResponse (contentType msg : Bytes) : Bytes := makeHttpHead 200 msg.length contentType ++ msg

variable {Iks : Type}

def hcSetCloseCallback (h : ConnectionId) (callback : CloseCallback) : ServerM Iks Unit :=
  modifyConnection h fun connection => { connection with closeCallback := some callback }

def hsAnswerRequest (h : ConnectionId) (answerer : Answerer Iks) (msg : Bytes)
    (contentType : Bytes) : ServerM Iks Unit := do
  let connection ← getConnection h
  let header := makeHttpHead 200 msg.length contentType
  onNet (sockSend connection.sock (some header) header.length true)
  onNet (sockSend connection.sock (some msg) msg.length false)
  modifyConnection h fun connection => { connection with closeCallback := none }
  modify (Server.record (.answer h answerer msg))

end Bosh
