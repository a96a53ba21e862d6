import TeenpattiUserServer.Bookkeeping.Runs
import TeenpattiUserServer.Net.Connection

/-! `CBackServer`, the link to the statistics server: it is connected, or a timer is
armed that connects it again. -/

namespace TeenpattiUserServer.UserServer

open Bookkeeping Net

/-- What `tcp_connect` does: a descriptor that is connected, one that is not, or none. -/
inductive ConnectResult where
  | connected (fd : Nat)
  | failed (fd : Nat)
  | noSocket
  deriving DecidableEq, Repr

/-- `armed` says that the timer is in a timer list, with the interval of 5000. -/
structure BackServer where
  netfd : Int
  stage : ConnState
  isConnected : Bool
  armed : Bool
  isLoop : Bool
  deriving DecidableEq, Repr

namespace BackServer

/-- As constructed, with reconnecting enabled. -/
def fresh : BackServer := ⟨0, .idle, false, false, false⟩

def startTimer (isLoop : Bool) (server : BackServer) : BackServer := { server with isLoop, armed := true }

def stopTimer (server : BackServer) : BackServer := { server with isLoop := false, armed := false }

def onClose (server : BackServer) : BackServer := { server with isConnected := false }.startTimer true

def reset (server : BackServer) : BackServer := { server with netfd := -1, stage := .idle }

/-- Whether `Connect` dials. -/
def dials (server : BackServer) : Prop := server.stage = .idle ∨ server.netfd < 0

instance (server : BackServer) : Decidable server.dials :=
  inferInstanceAs (Decidable (server.stage = .idle ∨ server.netfd < 0))

/-- `Send` on a connected link, whatever is queued. It calls `Connect` first; `none`
stands for a second dialling inside it. -/
def send (answer : SendResult) (server : BackServer) : Option BackServer :=
  if server.dials then none
  else
    match answer with
    | .fatal => some { server with stage := .fatalError }.onClose.reset
    | .full => some { server with stage := .sendDone }
    | .part _ | .again => some { server with stage := .dataSending }

/-- `ReportData` calls `SynData`, which sends one packet. -/
def reportData (answer : SendResult) (server : BackServer) : Option BackServer :=
  if server.isConnected = false then some server else server.send answer

def onConnected (answer : SendResult) (server : BackServer) : Option BackServer :=
  ({ server with isConnected := true }.reportData answer).map stopTimer

/-- A slot of the poller is free, and `epoll_ctl` succeeds on an open descriptor. -/
def attachPoller (server : BackServer) : Int := if server.netfd < 0 then -1 else 0

/-- After a failure the descriptor is closed, but its number is kept. -/
def connect (result : ConnectResult) (answer : SendResult) (server : BackServer) : Option (Int × BackServer) :=
  if server.dials then
    match result with
    | .connected fd =>
      ({ server with netfd := fd, stage := .connected }.onConnected answer).map fun after : BackServer =>
        (after.attachPoller, after)
    | .failed fd => some (-1, { server with netfd := fd })
    | .noSocket => some (-1, { server with netfd := -1 })
  else some (server.attachPoller, server)

def reConnect (result : ConnectResult) (answer : SendResult) (server : BackServer) : Option BackServer :=
  (server.connect result answer).map Prod.snd

def processOnTimerOut (result : ConnectResult) (answer : SendResult) (server : BackServer) : Option BackServer :=
  server.reConnect result answer

/-- `CheckExpired` takes the timer from its list before it calls `TimerNotify`. -/
def timerNotify (result : ConnectResult) (answer : SendResult) (server : BackServer) : Option BackServer :=
  ({ server with armed := false }.processOnTimerOut result answer).map fun after : BackServer =>
    if after.isLoop then after.startTimer after.isLoop else after

def initConnect (result : ConnectResult) (answer : SendResult) (server : BackServer) : Option (Int × BackServer) :=
  (server.connect result answer).map fun (ret, after) => (if ret < 0 then -1 else 0, after)

/-- `Options::InitBackServer`: what `InitConnect` returns is dropped. -/
def initBackServer (result : ConnectResult) (answer : SendResult) : Option BackServer :=
  (fresh.initConnect result answer).map Prod.snd

/-- The stages `handle_input` returns. -/
inductive InputStage where
  | dataRecving
  | recvDone
  | dataError
  | disconnect
  | fatalError
  | xmlPolicy
  deriving DecidableEq, Repr

/-- The stages `handle_output` returns. -/
inductive OutputStage where
  | sendDone
  | dataSending
  | fatalError
  deriving DecidableEq, Repr

def InputStage.state : InputStage → ConnState
  | .dataRecving => .dataRecving
  | .recvDone => .recvDone
  | .dataError => .dataError
  | .disconnect => .disconnect
  | .fatalError => .fatalError
  | .xmlPolicy => .xmlPolicy

def OutputStage.state : OutputStage → ConnState
  | .sendDone => .sendDone
  | .dataSending => .dataSending
  | .fatalError => .fatalError

def inputNotify (stage : InputStage) (server : BackServer) : BackServer :=
  let after := { server with stage := stage.state }
  if stage.state.keeps then after else after.onClose.reset

def outputNotify (stage : OutputStage) (server : BackServer) : BackServer :=
  let after := { server with stage := stage.state }
  match stage with
  | .sendDone | .dataSending => after
  | .fatalError => after.onClose.reset

def hangupNotify (server : BackServer) : BackServer := server.onClose.reset

/-- What the event loop brings: input, output or a hang-up on the descriptor, a report
that is due, or the timer, with what `tcp_connect` and `::send` then answer. -/
inductive LinkEvent where
  | input (stage : InputStage)
  | output (stage : OutputStage)
  | hangup
  | report (answer : SendResult)
  | timer (result : ConnectResult) (answer : SendResult)
  deriving DecidableEq, Repr

/-- One turn of the event loop. The poller knows only a connected link, and only an
armed timer expires. -/
def turn (event : LinkEvent) (server : BackServer) : Option BackServer :=
  match event with
  | .input stage => some (if server.isConnected then server.inputNotify stage else server)
  | .output stage => some (if server.isConnected then server.outputNotify stage else server)
  | .hangup => some (if server.isConnected then server.hangupNotify else server)
  | .report answer => server.reportData answer
  | .timer result answer => if server.armed then server.timerNotify result answer else some server

/-- The link is connected, or will be tried again. -/
def Kept (server : BackServer) : Prop := server.isConnected = true ∨ server.armed = true

/-- Between two turns: a connected link has a descriptor in use, and an armed timer
stands for a link that was reset and rearms itself. -/
structure Linked (server : BackServer) : Prop where
  inUse : server.isConnected = true → ¬ server.dials
  again : server.armed = true → server.isConnected = false ∧ server.stage = .idle ∧ server.isLoop = true

variable {server after : BackServer}

private theorem onClose_reset_linked (server : BackServer) :
    Linked server.onClose.reset ∧ Kept server.onClose.reset :=
  ⟨⟨by simp [onClose, reset, startTimer], by simp [onClose, reset, startTimer]⟩, .inr rfl⟩

/-- A link in use goes on with another stage. -/
private theorem Linked.stage (linked : Linked server) (connected : server.isConnected = true) {stage : ConnState}
    (busy : stage ≠ .idle) : Linked { server with stage } ∧ Kept { server with stage } := by
  have inUse := linked.inUse connected
  have notArmed : server.armed ≠ true := fun armed => by simp [(linked.again armed).1] at connected
  simp only [dials, not_or] at inUse
  exact ⟨⟨fun _ => by simp [dials, busy, inUse.2], fun armed => absurd armed notArmed⟩, .inl connected⟩

/-- `Send` on a link in use never dials; when it fails, the timer is armed. -/
private theorem send_keeps (linked : Linked server) (connected : server.isConnected = true) (answer : SendResult) :
    ∃ after, server.send answer = some after ∧ Linked after ∧ Kept after := by
  unfold send
  rw [if_neg (linked.inUse connected)]
  cases answer with
  | fatal => exact ⟨_, rfl, onClose_reset_linked _⟩
  | full => exact ⟨_, rfl, linked.stage connected (by simp)⟩
  | part count => exact ⟨_, rfl, linked.stage connected (by simp)⟩
  | again => exact ⟨_, rfl, linked.stage connected (by simp)⟩

/-- A new connection is kept exactly when its first report does not fail. -/
private theorem onConnected_kept_iff (server : BackServer) (fd : Nat) (answer : SendResult) :
    ∃ after, { server with netfd := fd, stage := .connected }.onConnected answer = some after ∧ Linked after ∧
      (Kept after ↔ answer ≠ .fatal) := by
  have inUse : ¬ dials { server with netfd := fd, stage := .connected, isConnected := true } := by
    simp [dials]
  simp only [onConnected, reportData, send]
  rw [if_neg (by simp), if_neg inUse]
  cases answer with
  | fatal =>
    refine ⟨_, rfl, ⟨?_, ?_⟩, ?_⟩ <;> simp [Kept, stopTimer, onClose, reset, startTimer]
  | full =>
    refine ⟨_, rfl, ⟨?_, ?_⟩, ?_⟩ <;> simp [Kept, stopTimer, dials]
  | part count =>
    refine ⟨_, rfl, ⟨?_, ?_⟩, ?_⟩ <;> simp [Kept, stopTimer, dials]
  | again =>
    refine ⟨_, rfl, ⟨?_, ?_⟩, ?_⟩ <;> simp [Kept, stopTimer, dials]

/-- The timer succeeds in connecting, and the report fails. -/
def FailsAtOnce (event : LinkEvent) : Prop := ∃ fd, event = .timer (.connected fd) .fatal

private theorem timerNotify_kept_iff (linked : Linked server) (armed : server.armed = true) (result : ConnectResult)
    (answer : SendResult) :
    ∃ after, server.timerNotify result answer = some after ∧ Linked after ∧
      (Kept after ↔ ¬ FailsAtOnce (.timer result answer)) := by
  obtain ⟨closed, idle, loop⟩ := linked.again armed
  have dialling : dials { server with armed := false } := .inl idle
  simp only [timerNotify, processOnTimerOut, reConnect, connect]
  rw [if_pos dialling]
  cases result with
  | connected fd =>
    obtain ⟨after, opened, further, kept⟩ := onConnected_kept_iff { server with armed := false } fd answer
    have stopped : after.isLoop = false := by
      obtain ⟨before, _, rfl⟩ := Option.map_eq_some_iff.mp opened
      rfl
    refine ⟨after, ?_, further, ?_⟩
    · simp [opened, stopped]
    · simpa [FailsAtOnce] using kept
  | failed fd =>
    refine ⟨_, rfl, ?_, ?_⟩
    · simp only [loop, if_true]
      exact ⟨fun connected => by simp [startTimer, closed] at connected, fun _ => ⟨closed, idle, rfl⟩⟩
    · simp [loop, Kept, startTimer, FailsAtOnce]
  | noSocket =>
    refine ⟨_, rfl, ?_, ?_⟩
    · simp only [loop, if_true]
      exact ⟨fun connected => by simp [startTimer, closed] at connected, fun _ => ⟨closed, idle, rfl⟩⟩
    · simp [loop, Kept, startTimer, FailsAtOnce]

private theorem inputNotify_keeps (linked : Linked server) (connected : server.isConnected = true)
    (stage : InputStage) :
    Linked (server.inputNotify stage) ∧ Kept (server.inputNotify stage) := by
  unfold inputNotify
  split_ifs with keeps
  · exact linked.stage connected (by cases stage <;> simp [InputStage.state])
  · exact onClose_reset_linked _

private theorem outputNotify_keeps (linked : Linked server) (connected : server.isConnected = true)
    (stage : OutputStage) : Linked (server.outputNotify stage) ∧ Kept (server.outputNotify stage) := by
  cases stage with
  | sendDone => exact linked.stage connected (by simp [OutputStage.state])
  | dataSending => exact linked.stage connected (by simp [OutputStage.state])
  | fatalError => exact onClose_reset_linked _

/-- One turn abandons a kept link only where a reconnection fails at once, and never
takes up an abandoned one. -/
private theorem turn_kept_iff (linked : Linked server) (event : LinkEvent) :
    ∃ after, turn event server = some after ∧ Linked after ∧
      (Kept after ↔ Kept server ∧ ¬ (server.armed = true ∧ FailsAtOnce event)) := by
  by_cases connected : server.isConnected = true
  · have notArmed : server.armed ≠ true := fun armed => by simp [(linked.again armed).1] at connected
    have kept : Kept server := .inl connected
    have turned : ∃ after, turn event server = some after ∧ Linked after ∧ Kept after := by
      cases event with
      | input stage => exact ⟨server.inputNotify stage, by simp [turn, connected], inputNotify_keeps linked connected stage⟩
      | output stage => exact ⟨server.outputNotify stage, by simp [turn, connected], outputNotify_keeps linked connected stage⟩
      | hangup => exact ⟨server.hangupNotify, by simp [turn, connected], onClose_reset_linked server⟩
      | report answer =>
        simp only [turn, reportData, connected]
        exact send_keeps linked connected answer
      | timer result answer =>
        simp only [turn, if_neg notArmed]
        exact ⟨server, rfl, linked, kept⟩
    obtain ⟨after, ran, further, keptOn⟩ := turned
    exact ⟨after, ran, further, iff_of_true keptOn ⟨kept, fun failing => notArmed failing.1⟩⟩
  · have closed : server.isConnected = false := by simpa using connected
    have same : (∀ result answer, event ≠ .timer result answer) → turn event server = some server := by
      intro other
      cases event with
      | input stage => simp [turn, closed]
      | output stage => simp [turn, closed]
      | hangup => simp [turn, closed]
      | report answer => simp [turn, reportData, closed]
      | timer result answer => exact absurd rfl (other result answer)
    by_cases timer : ∃ result answer, event = .timer result answer
    · obtain ⟨result, answer, rfl⟩ := timer
      by_cases armed : server.armed = true
      · obtain ⟨after, ran, further, kept⟩ := timerNotify_kept_iff linked armed result answer
        refine ⟨after, by simp [turn, armed, ran], further, ?_⟩
        rw [kept]
        exact ⟨fun fine => ⟨.inr armed, fun failing => fine failing.2⟩, fun both failing => both.2 ⟨armed, failing⟩⟩
      · refine ⟨server, by simp [turn, armed], linked, ?_⟩
        simp [Kept, closed, armed]
    · have other : ∀ result answer, event ≠ .timer result answer :=
        fun result answer same => timer ⟨result, answer, same⟩
      refine ⟨server, same other, linked, ?_⟩
      have fine : ¬ FailsAtOnce event := fun ⟨fd, failing⟩ => other _ _ failing
      simp [fine]

private theorem run_kept_iff (linked : Linked server) (events : List LinkEvent) :
    ∃ after, run turn events server = some after ∧
      (Kept after ↔ Kept server ∧ AtEachStep turn events server
        fun _ event before _ => ¬ (before.armed = true ∧ FailsAtOnce event)) := by
  induction events generalizing server with
  | nil => exact ⟨server, rfl, ⟨fun kept => ⟨kept, atEachStep_nil⟩, And.left⟩⟩
  | cons event events ih =>
    obtain ⟨middle, turned, further, first⟩ := turn_kept_iff linked event
    obtain ⟨after, ran, rest⟩ := ih further
    refine ⟨after, by rw [run, turned, Option.bind_some, ran], ?_⟩
    rw [rest, first, atEachStep_cons turned, and_assoc]

/-- The link is never abandoned exactly when the first attempt connects and no new
connection fails with the report that is sent on it. -/
theorem link_never_abandoned_iff (first : ConnectResult) (answer : SendResult) (events : List LinkEvent) :
    ∃ start after, initBackServer first answer = some start ∧ run turn events start = some after ∧
      ((after.isConnected = true ∨ after.armed = true) ↔
        ((∃ fd, first = .connected fd) ∧ answer ≠ .fatal) ∧
          AtEachStep turn events start fun _ event before _ =>
            ¬ (before.armed = true ∧ ∃ fd, event = .timer (.connected fd) .fatal)) := by
  have opened : ∃ start, initBackServer first answer = some start ∧ Linked start ∧
      (Kept start ↔ (∃ fd, first = .connected fd) ∧ answer ≠ .fatal) := by
    have dialling : fresh.dials := .inl rfl
    simp only [initBackServer, initConnect, connect]
    rw [if_pos dialling]
    cases first with
    | connected fd =>
      obtain ⟨start, ran, linked, kept⟩ := onConnected_kept_iff fresh fd answer
      exact ⟨start, by simp [ran], linked, by simpa using kept⟩
    | failed fd => exact ⟨_, rfl, ⟨by simp [fresh], by simp [fresh]⟩, by simp [Kept, fresh]⟩
    | noSocket => exact ⟨_, rfl, ⟨by simp [fresh], by simp [fresh]⟩, by simp [Kept, fresh]⟩
  obtain ⟨start, ran, linked, kept⟩ := opened
  obtain ⟨after, ranOn, keptOn⟩ := run_kept_iff linked events
  exact ⟨start, after, ran, ranOn, keptOn.trans (and_congr_left fun _ => kept)⟩

/-- With the first attempt failed, or the first report after a reconnection, the link
is neither connected nor tried again. -/
theorem link_abandoned :
    (initBackServer .noSocket .full).map (fun start => (start.isConnected, start.armed)) = some (false, false) ∧
      ((initBackServer (.connected 7) .full).bind fun start =>
        (run turn [.hangup, .timer (.connected 8) .fatal] start).map fun after => (after.isConnected, after.armed)) =
          some (false, false) := by
  decide

end BackServer

end TeenpattiUserServer.UserServer
