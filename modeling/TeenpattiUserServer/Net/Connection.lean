import TeenpattiUserServer.Net.Cutting

/-! `CCSocketHandler` with its two directions, as `CPollerUnit` calls it. The handler
does not reconnect, so closing it releases it. -/

namespace TeenpattiUserServer.Net

open Bytes Framing

/-- What `::send` answers to an offer of bytes: it takes all, or fewer, or fails with
an `errno` that asks to try again, or with another one. -/
inductive SendResult where
  | full
  | part (count : Nat)
  | again
  | fatal
  deriving DecidableEq, Repr

/-- How many of the offered bytes the kernel takes. -/
def SendResult.taken (offered : Nat) : SendResult → Nat
  | .full => offered
  | .part count => min count (offered - 1)
  | .again | .fatal => 0

/-- What `::recv` answers; `closed` is the length 0. -/
inductive RecvResult where
  | bytes (received : List UInt8)
  | closed
  | again
  | fatal
  deriving DecidableEq, Repr

/-- A call of `Send` with the answer of the `::send` it makes. -/
structure Sending where
  buff : List UInt8
  answer : SendResult
  deriving DecidableEq, Repr

/-- The bits of `newEvents` and `oldEvents`. -/
structure Interest where
  input : Bool
  output : Bool
  deriving DecidableEq, Repr

/-- `TPollerState` -/
inductive PollerState where
  | fail
  | succ
  | complete
  deriving DecidableEq, Repr

/-- What is seen of a handler: a packet goes to `OnPacketComplete`, `OutputNotify`
is called with so many bytes queued, `OnClose` is called, the handler is deleted,
and a member of the deleted handler is used. -/
inductive Act where
  | delivered (packet : List UInt8)
  | outputNotify (queued : Nat)
  | onClose
  | released
  | accessed
  deriving DecidableEq, Repr

/-- `accepted` is what the kernel has taken so far; `Handler` is the state of the
class that overrides `OnPacketComplete`. -/
structure Connection (Handler : Type) where
  r : RawCache
  w : RawCache
  stage : ConnState
  newEvents : Interest
  oldEvents : Interest
  handler : Handler
  accepted : List UInt8
  released : Bool
  acts : List Act

/-- The answer to a policy request. -/
def policyResponse : List UInt8 :=
  ("<cross-domain-policy><allow-access-from domain=\"*\" to-ports=\"*\" /></cross-domain-policy>".toList).map
    fun character => UInt8.ofNat character.toNat

namespace Connection

variable {Handler : Type}

/-- After `Init` and `AttachPoller`. -/
def connected (handler : Handler) : Connection Handler where
  r := RawCache.empty
  w := RawCache.empty
  stage := .connected
  newEvents := ⟨true, false⟩
  oldEvents := ⟨true, false⟩
  handler
  accepted := []
  released := false
  acts := []

def disableInput (conn : Connection Handler) : Connection Handler :=
  { conn with newEvents := { conn.newEvents with input := false } }

def enableOutput (conn : Connection Handler) : Connection Handler :=
  { conn with newEvents := { conn.newEvents with output := true } }

def disableOutput (conn : Connection Handler) : Connection Handler :=
  { conn with newEvents := { conn.newEvents with output := false } }

/-- `epoll_ctl` on the open descriptor succeeds. -/
def applyEvents (conn : Connection Handler) : Connection Handler :=
  { conn with oldEvents := conn.newEvents }

/-- `OnClose(); delete this`: the destructor empties both caches. -/
def close (conn : Connection Handler) : Connection Handler :=
  { conn with
    r := conn.r.skip conn.r.dataLen
    w := conn.w.skip conn.w.dataLen
    released := true
    acts := conn.acts ++ [.onClose, .released] }

/-- The released handler is used. What follows is undefined and left out. -/
def access (conn : Connection Handler) : Connection Handler :=
  { conn with acts := conn.acts ++ [.accessed] }

/-- The new stage is also what `handle_output` returns. The queue is shorter than
2 GiB, so it keeps its length as an `int`. -/
def handleOutput (answer : SendResult) (conn : Connection Handler) : Connection Handler :=
  if conn.w.dataLen ≠ 0 then
    match answer with
    | .again => { conn.enableOutput.applyEvents with stage := .dataSending }
    | .fatal => { conn.disableInput.disableOutput.applyEvents with stage := .fatalError }
    | .full | .part _ =>
      let ret := answer.taken conn.w.dataLen
      let sent := { conn with accepted := conn.accepted ++ conn.w.data.take ret, w := conn.w.skip ret }
      if ret = conn.w.dataLen then { sent.disableOutput.applyEvents with stage := .sendDone }
      else { sent.enableOutput.applyEvents with stage := .dataSending }
  else { conn.disableOutput.applyEvents with stage := .fatalError }

/-- `none` is the exception of the cache. -/
def send (allocate : Nat → Option Nat) (sending : Sending) (conn : Connection Handler) :
    Option (Connection Handler) :=
  let buff := sending.buff
  if buff.length = 0 then some conn
  else if conn.w.dataLen = 0 then
    match sending.answer with
    | .again => (conn.w.append allocate buff).map fun w =>
        { { conn with w }.enableOutput.applyEvents with stage := .dataSending }
    | .fatal => some { conn with stage := .fatalError }.close
    | .full | .part _ =>
      let ret := sending.answer.taken buff.length
      let sent := { conn with accepted := conn.accepted ++ buff.take ret }
      if ret < buff.length then
        (conn.w.append allocate (buff.drop ret)).map fun w =>
          { { sent with w }.enableOutput.applyEvents with stage := .dataSending }
      else some { sent with stage := .sendDone }
  else
    (conn.w.append allocate buff).map fun w =>
      let after := { conn with w }.handleOutput sending.answer
      if after.stage = .fatalError then after.close else after

/-- The calls of `Send` in one `OnPacketComplete`. A call on a released handler is
undefined and not followed. -/
def sendAll (allocate : Nat → Option Nat) : List Sending → Connection Handler → Option (Connection Handler)
  | [], conn => some conn
  | sending :: sendings, conn =>
    if conn.released then some conn
    else (conn.send allocate sending).bind (sendAll allocate sendings)

/-- The loop of `handle_input`; `OnPacketComplete` drops what its calls of `Send`
return. `none` also when the fuel runs out. -/
def parseLoop (allocate : Nat → Option Nat) (decoder : StreamDecoder)
    (onPacketComplete : Handler → List UInt8 → List Sending × Int × Handler) :
    Nat → Connection Handler → Option (Connection Handler)
  | 0, _ => none
  | fuel + 1, conn =>
    if conn.r.dataLen = 0 then some conn
    else
      let packetLen := decoder.parsePacket conn.r.data
      if packetLen = -1 then some { conn.disableInput with stage := .dataError }
      else if packetLen = 0 then some { conn with stage := .dataRecving }
      else
        let packet := conn.r.data.take packetLen.toNat
        let (sendings, ret, handler) := onPacketComplete conn.handler packet
        (sendAll allocate sendings { conn with handler, acts := conn.acts ++ [.delivered packet] }).bind fun after =>
          if after.released then some after.access
          else if ret < 0 then some { after with stage := .fatalError }
          else parseLoop allocate decoder onPacketComplete fuel
            { after with stage := .recvDone, r := after.r.skip packetLen.toNat }

/-- `reply` is the answer of the `::send` for the policy response, where it is made. -/
structure Arrival where
  recv : RecvResult
  reply : SendResult
  deriving DecidableEq, Repr

/-- The new stage is also what `handle_input` returns. -/
def handleInput (allocate : Nat → Option Nat) (decoder : StreamDecoder)
    (onPacketComplete : Handler → List UInt8 → List Sending × Int × Handler) (arrival : Arrival)
    (conn : Connection Handler) : Option (Connection Handler) :=
  match arrival.recv with
  | .fatal => some { conn.disableInput with stage := .fatalError }
  | .again => some { conn with stage := .dataRecving }
  | .closed => some { conn.disableInput with stage := .disconnect }
  | .bytes received =>
    if startsPolicy received then
      if received = policyRequest then
        (conn.send allocate ⟨policyResponse, arrival.reply⟩).map fun after =>
          if after.released then after.access else { after with stage := .xmlPolicy }
      else some { conn with stage := .dataError }
    else
      (conn.r.append allocate received).bind fun r =>
        parseLoop allocate decoder onPacketComplete (r.dataLen + 1) { conn with r }

/-- After the handler was used while released, nothing is followed any further. -/
def inputNotify (allocate : Nat → Option Nat) (decoder : StreamDecoder)
    (onPacketComplete : Handler → List UInt8 → List Sending × Int × Handler) (arrival : Arrival)
    (conn : Connection Handler) : Option (PollerState × Connection Handler) :=
  (conn.handleInput allocate decoder onPacketComplete arrival).map fun after =>
    if after.released then (.complete, after)
    else if after.stage.keeps then (.succ, after)
    else (.complete, after.close)

def outputNotify (answer : SendResult) (conn : Connection Handler) : PollerState × Connection Handler :=
  let called : Connection Handler := { conn with acts := conn.acts ++ [.outputNotify conn.w.dataLen] }
  let after := called.handleOutput answer
  match after.stage with
  | .sendDone => (.complete, after)
  | .dataSending => (.succ, after)
  | _ => (.complete, after.close)

def hangupNotify (conn : Connection Handler) : PollerState × Connection Handler := (.complete, conn.close)

/-- One event of `epoll_wait` for the handler, with what `::recv` and `::send` answer
where the event makes them be called. -/
structure PollerEvent where
  hangup : Bool
  input : Option Arrival
  output : Option SendResult
  deriving DecidableEq, Repr

/-- The part of `ProcessPollerEvents` from `EPOLLOUT` on. -/
def processOutput (output : Option SendResult) (conn : Connection Handler) : Connection Handler :=
  match output with
  | none => conn.applyEvents
  | some answer =>
    let (ret, after) := conn.outputNotify answer
    if after.released then after
    else if ret ≠ .succ then after
    else after.applyEvents

/-- `ProcessPollerEvents` on one event. A released handler has left its slot, and its
events do not pass `VerifyEvents`. -/
def processPollerEvents (allocate : Nat → Option Nat) (decoder : StreamDecoder)
    (onPacketComplete : Handler → List UInt8 → List Sending × Int × Handler) (event : PollerEvent)
    (conn : Connection Handler) : Option (Connection Handler) :=
  if conn.released then some conn
  else
    let ready := { conn with newEvents := conn.oldEvents }
    if event.hangup then some ready.hangupNotify.2
    else
      match event.input with
      | none => some (ready.processOutput event.output)
      | some arrival =>
        (ready.inputNotify allocate decoder onPacketComplete arrival).map fun (ret, after) =>
          if after.released then after
          else if ret ≠ .succ then after
          else after.processOutput event.output

end Connection

end TeenpattiUserServer.Net
