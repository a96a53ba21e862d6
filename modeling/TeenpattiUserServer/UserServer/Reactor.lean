import TeenpattiUserServer.Net.Connection
import TeenpattiUserServer.Net.PacketComplete
import TeenpattiUserServer.UserServer.Run

/-! From the bytes on the sockets to the state of the server: the packets of all the
connections are processed one at a time, each connection's in the order they were
sent, however their bytes come in. -/

namespace TeenpattiUserServer.UserServer

open Std Bytes Bookkeeping Net Packet Framing

/-- A call of `ProcessPacket`, with the frame its packet was copied from, or another event. -/
inductive Entry (ι : Type) where
  | packet (source : ι) (frame : List UInt8) (pPacket : PacketBase) (answers : Answers)
  | event (event : Event) (answers : Answers)

namespace Entry

variable {ι : Type}

/-- What the server makes of it. -/
def input : Entry ι → Event × Answers
  | packet _ _ pPacket answers => (.request (request pPacket), answers)
  | event other answers => (other, answers)

/-- The frame, if it came from this connection. -/
def frameOf [DecidableEq ι] (i : ι) : Entry ι → Option (List UInt8)
  | packet source frame _ _ => if source = i then some frame else none
  | event .. => none

/-- The event, if it is not a packet. -/
def other : Entry ι → Option (Event × Answers)
  | packet .. => none
  | event other answers => some (other, answers)

end Entry

/-- The `ClientHandler`s of the connections, with their packets `pPacket`, and the server behind
them, `none` after a division by zero. The source keeps no history: `log` lists what was
processed, and `received` the bytes that went into each cache. -/
structure Reactor (ι : Type) where
  conn : ι → SocketHandler PacketBase
  closed : ι → Bool
  server : Option Server
  log : List (Entry ι)
  received : ι → List UInt8

/-- What the event loop turns to: `recv` on a connection, or another event. -/
inductive Turn (ι : Type) where
  | input (i : ι) (recv : RecvResult) (answers : Nat → Answers)
  | event (event : Event) (answers : Answers)

namespace Turn

variable {ι : Type} [DecidableEq ι]

/-- What arrives on a connection. -/
def bytesOf (i : ι) : Turn ι → List UInt8
  | input j (.bytes chunk) _ => if j = i then chunk else []
  | _ => []

/-- The connection does not end here, and gets nothing that looks like a policy request. -/
def Spares (i : ι) : Turn ι → Prop
  | input j (.bytes chunk) _ => j = i → startsPolicy chunk = false
  | input _ .again _ => True
  | input j _ _ => j ≠ i
  | event .. => True

def other : Turn ι → Option (Event × Answers)
  | input .. => none
  | event other answers => some (other, answers)

end Turn

namespace Reactor

variable {ι : Type}

/-- Connections without a byte. -/
def start (server : Server) : Reactor ι where
  conn _ := SocketHandler.connected blank
  closed _ := false
  server := some server
  log := []
  received _ := []

/-- `OnPacketComplete` of connection `i`; `left` is the packet as `ProcessPacket` leaves it. -/
def onPacketComplete (left : PacketBase → PacketBase) (i : ι) (answers : Nat → Answers)
    (state : (Option Server × List (Entry ι)) × PacketBase) (data : List UInt8) :
    Int × (Option Server × List (Entry ι)) × PacketBase :=
  let ((server, log), pPacket) := state
  let packet := (pPacket.copy data).2
  let answers := answers log.length
  (0, (server.bind (Server.processPacket packet answers), log ++ [.packet i data packet answers]), left packet)

variable [DecidableEq ι]

/-- `InputNotify` after `recv`; a connection that was closed is not heard any more. -/
def turn (allocate : Nat → Option Nat) (left : PacketBase → PacketBase) (turn : Turn ι) (reactor : Reactor ι) :
    Option (Reactor ι) :=
  match turn with
  | .event event answers => some { reactor with
      server := reactor.server.bind (Server.step event answers)
      log := reactor.log ++ [.event event answers] }
  | .input i recv answers =>
    if reactor.closed i then some reactor
    else
      let conn := reactor.conn i
      match recv with
      | .again => some { reactor with conn := Function.update reactor.conn i { conn with stage := .dataRecving } }
      | .closed | .fatal => some { reactor with closed := Function.update reactor.closed i true }
      | .bytes chunk =>
        (SocketHandler.handleInput allocate BoyaaDecoder (onPacketComplete left i answers)
            ⟨conn.r, conn.stage, conn.inputEnabled, ((reactor.server, reactor.log), conn.handler)⟩ chunk).map fun after =>
          { conn := Function.update reactor.conn i ⟨after.r, after.stage, after.inputEnabled, after.handler.2⟩
            closed := Function.update reactor.closed i !after.stage.keeps
            server := after.handler.1.1
            log := after.handler.1.2
            received := if startsPolicy chunk then reactor.received
              else Function.update reactor.received i (reactor.received i ++ chunk) }

/-- The packet is the frame, and nothing of the packets before it is left in the buffer. -/
structure Clean (frame : List UInt8) (packet : PacketBase) : Prop where
  exact : Exact frame packet
  zeros : packet.strBuf = store (fun _ => 0) 0 frame

/-- The server has taken the packets and events of the log one after another; of each connection these
are the complete packets among the bytes received, the others waiting in its cache. -/
structure Faithful (begun : Server) (reactor : Reactor ι) : Prop where
  served : reactor.server =
    run (fun input : Event × Answers => Server.step input.1 input.2) (reactor.log.map Entry.input) begun
  frames : ∀ i, reactor.log.filterMap (Entry.frameOf i) = (whole BoyaaDecoder.verdict (reactor.received i)).frames
  exact : ∀ i frame packet answers, .packet i frame packet answers ∈ reactor.log → frame.length ≤ 8192 →
    Clean frame packet
  kept : ∀ i, reactor.closed i = false → (whole BoyaaDecoder.verdict (reactor.received i)).failed = false ∧
    (reactor.conn i).r.data = (whole BoyaaDecoder.verdict (reactor.received i)).rest

variable {begun : Server} {reactor : Reactor ι} {left : PacketBase → PacketBase} {i : ι} {answers : Nat → Answers}

private theorem clean_copy (packet : PacketBase) {frame : List UInt8} (small : frame.length ≤ 8192) :
    Clean frame (packet.copy frame).2 := by
  have fits : ¬ bufferSize < (frame.length : Int) := by
    simp only [bufferSize]
    omega
  exact ⟨(copy_exact_iff packet frame).mpr small, by rw [PacketBase.copy, if_neg fits]; rfl⟩

/-- What the calls of `OnPacketComplete` for some frames add to the log. -/
private structure Adds (i : ι) (frames : List (List UInt8)) (entries : List (Entry ι)) : Prop where
  own : entries.filterMap (Entry.frameOf i) = frames
  others : ∀ j, j ≠ i → entries.filterMap (Entry.frameOf j) = []
  silent : entries.filterMap Entry.other = []
  exact : ∀ j frame packet answers, .packet j frame packet answers ∈ entries → frame.length ≤ 8192 →
    Clean frame packet

private theorem handled_adds (frames : List (List UInt8)) (server : Option Server) (log : List (Entry ι))
    (pPacket : PacketBase) : ∃ entries pPacket', Adds i frames entries ∧
      SocketHandler.handled (onPacketComplete left i answers) frames ((server, log), pPacket) =
        ((server.bind (run (fun input : Event × Answers => Server.step input.1 input.2) (entries.map Entry.input)),
          log ++ entries), pPacket') := by
  induction frames generalizing server log pPacket with
  | nil =>
    refine ⟨[], pPacket, ⟨rfl, fun _ _ => rfl, rfl, by simp⟩, ?_⟩
    cases server <;> simp [SocketHandler.handled, run]
  | cons frame frames ih =>
    obtain ⟨entries, last, adds, same⟩ := ih
      (server.bind (Server.processPacket (pPacket.copy frame).2 (answers log.length)))
      (log ++ [.packet i frame (pPacket.copy frame).2 (answers log.length)]) (left (pPacket.copy frame).2)
    refine ⟨.packet i frame (pPacket.copy frame).2 (answers log.length) :: entries, last, ⟨?_, ?_, adds.silent, ?_⟩, ?_⟩
    · simp [Entry.frameOf, adds.own]
    · intro j different
      simp [Entry.frameOf, different.symm, adds.others j different]
    · intro j other packet' answers' member small
      rcases List.mem_cons.mp member with first | later
      · cases first
        exact clean_copy pPacket small
      · exact adds.exact j other packet' answers' later small
    · rw [SocketHandler.handled, List.foldl_cons]
      refine same.trans ?_
      rw [List.append_assoc]
      cases server <;> rfl

/-- An open connection keeps what the decoder left of its bytes. -/
private structure Waits (received : List UInt8) (conn : SocketHandler PacketBase) : Prop where
  fine : (whole BoyaaDecoder.verdict received).failed = false
  holds : conn.r.Holds (whole BoyaaDecoder.verdict received).rest
  keeps : conn.stage.keeps = true

private structure Sound (begun : Server) (reactor : Reactor ι) : Prop where
  served : reactor.server =
    run (fun input : Event × Answers => Server.step input.1 input.2) (reactor.log.map Entry.input) begun
  frames : ∀ i, reactor.log.filterMap (Entry.frameOf i) = (whole BoyaaDecoder.verdict (reactor.received i)).frames
  exact : ∀ i frame packet answers, .packet i frame packet answers ∈ reactor.log → frame.length ≤ 8192 →
    Clean frame packet
  waits : ∀ i, reactor.closed i = false → Waits (reactor.received i) (reactor.conn i)

private theorem start_sound : Sound begun (start begun : Reactor ι) where
  served := rfl
  frames _ := rfl
  exact _ _ _ _ := nofun
  waits _ _ := ⟨rfl, RawCache.empty_holds, rfl⟩

private theorem faithful_of_sound (sound : Sound begun reactor) : reactor.Faithful begun where
  served := sound.served
  frames := sound.frames
  exact := sound.exact
  kept i open' := ⟨(sound.waits i open').fine, (sound.waits i open').holds.data⟩

/-- One connection moves on: some more bytes, and the frames that they complete. -/
private theorem Sound.moved (sound : Sound begun reactor) {frames : List (List UInt8)} {entries : List (Entry ι)}
    (adds : Adds i frames entries) (more : List UInt8) (conn : SocketHandler PacketBase) (closed : Bool)
    (completes : (whole BoyaaDecoder.verdict (reactor.received i ++ more)).frames =
      (whole BoyaaDecoder.verdict (reactor.received i)).frames ++ frames)
    (waits : closed = false → Waits (reactor.received i ++ more) conn) : Sound begun
      { conn := Function.update reactor.conn i conn
        closed := Function.update reactor.closed i closed
        server := reactor.server.bind
          (run (fun input : Event × Answers => Server.step input.1 input.2) (entries.map Entry.input))
        log := reactor.log ++ entries
        received := Function.update reactor.received i (reactor.received i ++ more) } := by
  constructor
  · rw [sound.served, List.map_append, run_append]
  · intro j
    simp only [List.filterMap_append, sound.frames]
    by_cases same : j = i
    · subst same
      rw [Function.update_self, completes, adds.own]
    · rw [Function.update_of_ne same, adds.others j same, List.append_nil]
  · intro j frame packet answers member small
    rcases List.mem_append.mp member with before | new
    · exact sound.exact j frame packet answers before small
    · exact adds.exact j frame packet answers new small
  · intro j still
    by_cases same : j = i
    · subst same
      simp only [Function.update_self] at still ⊢
      exact waits still
    · simp only [Function.update_of_ne same] at still ⊢
      exact sound.waits j still

/-- Nothing is completed, and the connection may be closed. -/
private theorem Sound.rested (sound : Sound begun reactor) (i : ι) (conn : SocketHandler PacketBase) (closed : Bool)
    (waits : closed = false → Waits (reactor.received i) conn) : Sound begun { reactor with
      conn := Function.update reactor.conn i conn, closed := Function.update reactor.closed i closed } := by
  have none : Adds (ι := ι) i [] [] := ⟨rfl, fun _ _ => rfl, rfl, by simp⟩
  have same : reactor.received i ++ [] = reactor.received i := List.append_nil _
  have moved := sound.moved none [] conn closed (by rw [same, List.append_nil]) (by rwa [same])
  rw [same, Function.update_eq_self, List.map_nil, List.append_nil] at moved
  have served : reactor.server.bind (run (fun input : Event × Answers => Server.step input.1 input.2) []) =
      reactor.server := by
    cases reactor.server <;> rfl
  rwa [served] at moved

/-- A connection is open and has got all that was sent, or its decoder has refused the front of it. -/
private def Heard (i : ι) (sent : List UInt8) (reactor : Reactor ι) : Prop :=
  if reactor.closed i then (whole BoyaaDecoder.verdict (reactor.received i)).failed = true ∧ reactor.received i <+: sent
  else reactor.received i = sent

omit [DecidableEq ι] in
/-- More is sent to a connection that does not hear it. -/
private theorem Heard.deaf {sent : List UInt8} (heard : Heard i sent reactor) (closed : reactor.closed i = true)
    (more : List UInt8) : Heard i (sent ++ more) reactor := by
  rw [Heard, if_pos closed] at heard ⊢
  exact ⟨heard.1, heard.2.trans (List.prefix_append ..)⟩

omit [DecidableEq ι] in
private theorem Heard.congr {sent : List UInt8} (heard : Heard i sent reactor) {after : Reactor ι}
    (closed : after.closed i = reactor.closed i) (received : after.received i = reactor.received i) :
    Heard i sent after := by
  rwa [Heard, closed, received]

omit [DecidableEq ι] in
/-- Bytes behind a refusal complete nothing. -/
private theorem Heard.frames {sent : List UInt8} (heard : Heard i sent reactor) :
    (whole BoyaaDecoder.verdict (reactor.received i)).frames = (whole BoyaaDecoder.verdict sent).frames := by
  rw [Heard] at heard
  split at heard
  · obtain ⟨failed, more, rfl⟩ := heard
    have settled : Settled BoyaaDecoder.verdict := matchingDecoder_settled .network
    rw [settled.whole_append, if_pos failed]
  · rw [heard]

/-- A chunk is received as part of the stream of its connection. -/
private theorem Sound.received {allocate : Nat → Option Nat} (serves : RawCache.Serves allocate)
    (sound : Sound begun reactor) (open' : reactor.closed i = false) {chunk : List UInt8}
    (fits : chunk.length ≤ maxWebRecvLen) (plain : startsPolicy chunk = false) :
    ∃ after, turn allocate left (.input i (.bytes chunk) answers) reactor = some after ∧ Sound begun after ∧
      after.received = Function.update reactor.received i (reactor.received i ++ chunk) ∧
      after.closed = Function.update reactor.closed i
        (whole BoyaaDecoder.verdict (reactor.received i ++ chunk)).failed ∧
      after.log.filterMap Entry.other = reactor.log.filterMap Entry.other := by
  obtain ⟨fine, holds, keeps⟩ := sound.waits i open'
  have settled : Settled BoyaaDecoder.verdict := matchingDecoder_settled .network
  have waiting : (whole BoyaaDecoder.verdict (reactor.received i)).rest.length < 10240 := by
    rcases settled.whole_rest fine with empty | waits
    · simp [empty]
    · exact @matchingDecoder_waits .network _ waits
  have small : (whole BoyaaDecoder.verdict (reactor.received i)).rest.length + chunk.length < maxWebRecvLen + 10240 := by
    omega
  obtain ⟨r, appended, fresh⟩ := holds.append serves small
  let filled : SocketHandler ((Option Server × List (Entry ι)) × PacketBase) :=
    ⟨r, (reactor.conn i).stage, (reactor.conn i).inputEnabled, ((reactor.server, reactor.log), (reactor.conn i).handler)⟩
  have filledHolds : filled.r.Holds _ := fresh
  have enough := Nat.le_of_eq fresh.length.symm
  obtain ⟨after, ran, obeyed⟩ := @SocketHandler.parseLoop_obeys _ BoyaaDecoder (onPacketComplete left i answers) _ _
    (fun _ _ => rfl) filledHolds _ enough
  rw [settled.drain_whole enough] at obeyed
  have joined := settled.whole_append (reactor.received i) chunk
  rw [if_neg (by simp [fine])] at joined
  obtain ⟨entries, pPacket, adds, handled⟩ := @handled_adds _ _ left i answers
    (whole BoyaaDecoder.verdict ((whole BoyaaDecoder.verdict (reactor.received i)).rest ++ chunk)).frames
    reactor.server reactor.log (reactor.conn i).handler
  have result := obeyed.handler.trans handled
  have verdict : (!after.stage.keeps) = (whole BoyaaDecoder.verdict (reactor.received i ++ chunk)).failed := by
    have stage := obeyed.stage
    rw [joined]
    split at stage
    · rename_i failed
      rw [failed, stage]
      rfl
    · rename_i failed
      rw [Bool.not_eq_true] at failed
      rw [failed]
      rcases stage with same | later | done
      · rw [same]
        exact congrArg Bool.not keeps
      · rw [later]
        rfl
      · rw [done]
        rfl
  refine ⟨_, ?_, sound.moved adds chunk ⟨after.r, after.stage, after.inputEnabled, pPacket⟩ (!after.stage.keeps) ?_ ?_,
    rfl, ?_, ?_⟩
  · have input : SocketHandler.handleInput allocate BoyaaDecoder (onPacketComplete left i answers)
        { filled with r := (reactor.conn i).r } chunk = some after := by
      rw [SocketHandler.handleInput, if_neg (by simp [plain]), SocketHandler.receive, appended]
      exact ran
    simp only [turn, open', plain, Bool.false_eq_true, if_false]
    refine (congrArg _ input).trans ?_
    rw [Option.map_some, result]
  · rw [joined]
  · intro stays
    refine ⟨verdict.symm.trans stays, ?_, by simpa using stays⟩
    rw [joined]
    exact obeyed.holds
  · rw [verdict]
  · rw [List.filterMap_append, adds.silent, List.append_nil]

/-- A turn keeps what is known, and each connection hears what it is sent until it ends. -/
private theorem turn_sound {allocate : Nat → Option Nat} (serves : RawCache.Serves allocate)
    (sound : Sound begun reactor) (turned : Turn ι)
    (fits : ∀ i chunk answers, turned = .input i (.bytes chunk) answers → chunk.length ≤ maxWebRecvLen) :
    ∃ after, turn allocate left turned reactor = some after ∧ Sound begun after ∧
      after.log.filterMap Entry.other = reactor.log.filterMap Entry.other ++ turned.other.toList ∧
      ∀ j sent, turned.Spares j → Heard j sent reactor → Heard j (sent ++ turned.bytesOf j) after := by
  cases turned with
  | event event answers =>
    refine ⟨_, rfl, ⟨?_, fun i => ?_, fun i frame packet answers member => ?_, sound.waits⟩, ?_,
      fun j sent _ heard => ?_⟩
    · rw [sound.served, List.map_append, run_append]
      cases run (fun input : Event × Answers => Server.step input.1 input.2) (reactor.log.map Entry.input) begun with
      | none => rfl
      | some server => exact (Option.bind_fun_some _).symm
    · simp [Entry.frameOf, sound.frames]
    · exact sound.exact i frame packet answers (by simpa using member)
    · exact List.filterMap_append
    · exact (List.append_nil sent).symm ▸ heard
  | input i recv answers =>
    have same := (List.append_nil (reactor.log.filterMap Entry.other)).symm
    cases open' : reactor.closed i with
    | true =>
      refine ⟨reactor, by simp [turn, open'], sound, same, fun j sent _ heard => ?_⟩
      by_cases same : j = i
      · subst same
        exact heard.deaf open' _
      · have none : (Turn.input i recv answers).bytesOf j = [] := by
          cases recv <;> simp [Turn.bytesOf, Ne.symm same]
        rwa [none, List.append_nil]
    | false =>
      have waits := sound.waits i open'
      have closes : Sound begun { reactor with closed := Function.update reactor.closed i true } := by
        have rested := sound.rested i (reactor.conn i) true nofun
        rwa [Function.update_eq_self] at rested
      have unheard (j : ι) (different : i ≠ j) (sent : List UInt8) (heard : Heard j sent reactor)
          (conn : ι → SocketHandler PacketBase) :
          Heard j sent { reactor with conn, closed := Function.update reactor.closed i true } :=
        heard.congr (Function.update_of_ne different.symm ..) rfl
      cases recv with
      | again =>
        refine ⟨_, by simp only [turn, open']; rfl, ?_, ?_, fun j sent _ heard => ?_⟩
        · have rested := sound.rested i { reactor.conn i with stage := .dataRecving } (reactor.closed i)
            fun _ => ⟨waits.fine, waits.holds, rfl⟩
          rwa [Function.update_eq_self] at rested
        · exact same
        · exact (List.append_nil sent).symm ▸ heard
      | closed =>
        refine ⟨_, by simp only [turn, open']; rfl, closes, same, fun j sent spares heard => ?_⟩
        exact (List.append_nil sent).symm ▸ unheard j spares sent heard _
      | fatal =>
        refine ⟨_, by simp only [turn, open']; rfl, closes, same, fun j sent spares heard => ?_⟩
        exact (List.append_nil sent).symm ▸ unheard j spares sent heard _
      | bytes chunk =>
        have small := fits i chunk answers rfl
        cases policy : startsPolicy chunk with
        | false =>
          obtain ⟨after, turned, still, received, closed, silent⟩ := sound.received serves open' small policy
          refine ⟨after, turned, still, silent.trans same, fun j sent _ heard => ?_⟩
          by_cases same : i = j
          · subst same
            have all : reactor.received i = sent := by simpa [Heard, open'] using heard
            rw [Turn.bytesOf, if_pos rfl, Heard, received, closed, Function.update_self, Function.update_self, all]
            split
            · rename_i failed
              exact ⟨failed, List.prefix_rfl⟩
            · rfl
          · rw [Turn.bytesOf, if_neg same, List.append_nil]
            refine heard.congr ?_ ?_
            · rw [closed, Function.update_of_ne (Ne.symm same)]
            · rw [received, Function.update_of_ne (Ne.symm same)]
        | true =>
          have apart (j : ι) (sent : List UInt8) (spares : (Turn.input i (.bytes chunk) answers).Spares j) :
              i ≠ j ∧ sent ++ (Turn.input i (.bytes chunk) answers).bytesOf j = sent := by
            have different : i ≠ j := fun same => by simp [spares same] at policy
            exact ⟨different, by simp [Turn.bytesOf, different]⟩
          by_cases asked : chunk = policyRequest
          · refine ⟨_, by simp only [turn, open', SocketHandler.handleInput, policy, if_true, if_pos asked]; rfl,
              sound.rested _ _ true nofun, same, fun j sent spares heard => ?_⟩
            rw [(apart j sent spares).2]
            exact unheard j (apart j sent spares).1 sent heard _
          · refine ⟨_, by simp only [turn, open', SocketHandler.handleInput, policy, if_true, if_neg asked]; rfl,
              sound.rested _ _ true nofun, same, fun j sent spares heard => ?_⟩
            rw [(apart j sent spares).2]
            exact unheard j (apart j sent spares).1 sent heard _

private theorem run_sound {allocate : Nat → Option Nat} (serves : RawCache.Serves allocate) (turns : List (Turn ι))
    (fits : ∀ i chunk answers, .input i (.bytes chunk) answers ∈ turns → chunk.length ≤ maxWebRecvLen)
    (sound : Sound begun reactor) : ∃ after, run (turn allocate left) turns reactor = some after ∧ Sound begun after ∧
      after.log.filterMap Entry.other = reactor.log.filterMap Entry.other ++ turns.filterMap Turn.other ∧
      ∀ i sent, (∀ turned ∈ turns, turned.Spares i) → Heard i sent reactor →
        Heard i (sent ++ turns.flatMap (Turn.bytesOf i)) after := by
  induction turns generalizing reactor with
  | nil => exact ⟨reactor, rfl, sound, (List.append_nil _).symm, fun i sent _ heard => by simpa using heard⟩
  | cons first turns ih =>
    obtain ⟨middle, turned, still, noted, hears⟩ := @turn_sound _ _ _ _ left _ serves sound first
      fun i chunk answers same => fits i chunk answers (same ▸ List.mem_cons_self ..)
    obtain ⟨after, ran, last, notedOn, hearsOn⟩ :=
      ih (fun i chunk answers member => fits i chunk answers (List.mem_cons_of_mem _ member)) still
    refine ⟨after, by rw [run, turned, Option.bind_some, ran], last, ?_, fun i sent spares heard => ?_⟩
    · rw [notedOn, noted, List.append_assoc]
      cases other : first.other <;> simp [other]
    rw [List.flatMap_cons, ← List.append_assoc]
    exact hearsOn i _ (fun later member => spares later (List.mem_cons_of_mem _ member))
      (hears i sent (spares first (List.mem_cons_self ..)) heard)

/-- However the bytes of the connections and the other events come in, the server takes the packets of each
connection in their order, one at a time between the other events, and nothing else; of a connection that
is not cut off it takes all that are complete. -/
theorem packets_served_in_order {allocate : Nat → Option Nat} (serves : RawCache.Serves allocate)
    (left : PacketBase → PacketBase) (begun : Server) (turns : List (Turn ι))
    (fits : ∀ i chunk answers, .input i (.bytes chunk) answers ∈ turns → chunk.length ≤ maxWebRecvLen) :
    ∃ reactor, run (turn allocate left) turns (start begun) = some reactor ∧ reactor.Faithful begun ∧
      reactor.log.filterMap Entry.other = turns.filterMap Turn.other ∧
      ∀ i, (∀ turned ∈ turns, turned.Spares i) → reactor.log.filterMap (Entry.frameOf i) =
        (whole BoyaaDecoder.verdict (turns.flatMap (Turn.bytesOf i))).frames := by
  obtain ⟨reactor, ran, sound, noted, hears⟩ := @run_sound _ _ begun (start begun) left _ serves turns fits start_sound
  refine ⟨reactor, ran, faithful_of_sound sound, noted, fun i spares => ?_⟩
  rw [sound.frames]
  exact (hears i [] spares rfl).frames

/-- Users 7 and 8 are reported to leave their rooms. -/
def leaveReport (uid : UInt8) : List UInt8 := [0, 11, 66, 89, 1, 1, 5, 6, 0, 0, 0, 0, uid]

/-- Two reports on one connection, cut inside the second, and one on the other in between. -/
def interleaved : List (Turn Bool) :=
  [.input false (.bytes (leaveReport 7 ++ (leaveReport 8).take 5)) fun _ => Server.quiet 1000,
    .input true (.bytes (leaveReport 8)) fun _ => Server.quiet 1001, .event .flushCheck (Server.quiet 1002),
    .input false (.bytes ((leaveReport 8).drop 5)) fun _ => Server.quiet 1003]

theorem packets_served_in_order_interleaved : ∃ reactor,
    run (turn (fun size => some (RawCache.fitBlockSize size)) id) interleaved (start (Server.initial 2 0)) =
        some reactor ∧
      reactor.Faithful (Server.initial 2 0) ∧
      reactor.log.filterMap Entry.other = [(.flushCheck, Server.quiet 1002)] ∧
      reactor.log.filterMap (Entry.frameOf false) = [leaveReport 7, leaveReport 8] ∧
      reactor.log.filterMap (Entry.frameOf true) = [leaveReport 8] := by
  obtain ⟨reactor, ran, faithful, noted, taken⟩ :=
    packets_served_in_order RawCache.fitBlockSize_serves id (Server.initial 2 0) interleaved (by
      rintro i chunk answers member
      simp only [interleaved, List.mem_cons, Turn.input.injEq, RecvResult.bytes.injEq, reduceCtorEq, List.not_mem_nil,
        or_false, false_or] at member
      rcases member with ⟨-, rfl, -⟩ | ⟨-, rfl, -⟩ | ⟨-, rfl, -⟩ <;> decide)
  have spares (i : Bool) : ∀ turned ∈ interleaved, turned.Spares i := by
    simp [interleaved, leaveReport, Turn.Spares, startsPolicy]
  refine ⟨reactor, ran, faithful, noted, (taken false (spares false)).trans ?_, (taken true (spares true)).trans ?_⟩
  · decide
  · decide

end Reactor

end TeenpattiUserServer.UserServer
