import TeenpattiUserServer.Net.Replying
import TeenpattiUserServer.UserServer.Reactor
import TeenpattiUserServer.UserServer.Replies

/-! Both directions of all connections: the packets that a connection is sent answer its
own packets, and its peer gets their bytes in order, in whatever portions the kernel
takes and brings them. -/

namespace TeenpattiUserServer.UserServer

open Std Bytes Bookkeeping Net Packet Framing

namespace Entry

variable {ι : Type}

/-- The connection it came from. -/
def source : Entry ι → Option ι
  | packet source .. => some source
  | event .. => none

end Entry

/-- What the event loop turns to: an event of `epoll_wait` for a connection, with the answers to the questions
of each packet and to each call of `::send`, or another event of the server. -/
inductive Occurrence (ι : Type) where
  | poll (i : ι) (event : Connection.PollerEvent) (answers : Nat → Answers) (sends : Nat → SendResult)
  | event (event : Event) (answers : Answers)

/-- `::recv` takes at least one byte, memcached no long value, and no `::send` fails that is made while a packet
is processed. The requests come with the packets. -/
def Occurrence.Proper {ι : Type} : Occurrence ι → Prop
  | .poll _ polled answers sends =>
    polled.Proper ∧ (∀ call, (answers call).Brief) ∧ ∀ call, sends call ≠ .fatal
  | .event other answers => answers.Brief ∧ ∀ request, other ≠ .request request

/-- The `ClientHandler`s of the connections and the server behind them. The source keeps no history:
`log` lists what was processed, and `received` the bytes that went into each cache. -/
structure Exchange (ι : Type) where
  conn : ι → Connection PacketBase
  server : Server
  log : List (Entry ι)
  received : ι → List UInt8

namespace Exchange

variable {ι : Type}

def start (server : Server) : Exchange ι where
  conn _ := Connection.connected blank
  server
  log := []
  received _ := []

/-- What `OnPacketComplete` works on; there is no server after a division by zero. -/
abbrev Work (ι : Type) : Type := (Option Server × List (Entry ι)) × PacketBase

/-- The calls of `Send` between two states of the server. -/
def sendings (sends : Nat → SendResult) (before after : Server) : List Sending :=
  ((Server.replies before after).zipIdx before.sent.length).map fun reply => ⟨reply.1, sends reply.2⟩

/-- `OnPacketComplete` of connection `i`; `left` is the packet as `ProcessPacket` leaves it. -/
def onPacketComplete (left : PacketBase → PacketBase) (i : ι) (answers : Nat → Answers) (sends : Nat → SendResult) :
    Work ι → List UInt8 → List Sending × Int × Work ι
  | ((none, log), pPacket), _ => ([], 0, ((none, log), pPacket))
  | ((some server, log), pPacket), data =>
    let packet := (pPacket.copy data).2
    match server.processPacket packet (answers log.length) with
    | none => ([], 0, ((none, log), packet))
    | some next =>
      (sendings sends server next, 0, ((some next, log ++ [.packet i data packet (answers log.length)]), left packet))

variable [DecidableEq ι]

/-- `none` after an exception of a cache, and after a division by zero. -/
def turn (allocate : Nat → Option Nat) (left : PacketBase → PacketBase) (occurrence : Occurrence ι)
    (exchange : Exchange ι) : Option (Exchange ι) :=
  match occurrence with
  | .event event answers => (exchange.server.step event answers).map fun server =>
      { exchange with server, log := exchange.log ++ [.event event answers] }
  | .poll i event answers sends => do
    let conn := exchange.conn i
    let work : Work ι := ((some exchange.server, exchange.log), conn.handler)
    let after ← (conn.handing work).processPollerEvents allocate BoyaaDecoder
      (onPacketComplete left i answers sends) event
    let server ← after.handler.1.1
    pure {
      conn := Function.update exchange.conn i (after.handing after.handler.2)
      server
      log := after.handler.1.2
      received :=
        if conn.released then exchange.received
        else Function.update exchange.received i (exchange.received i ++ event.piece) }

/-- The packets sent to a connection when the log is processed from this state on. -/
def repliesTo (i : ι) : List (Entry ι) → Server → List (List UInt8)
  | [], _ => []
  | entry :: log, server =>
    match server.step entry.input.1 entry.input.2 with
    | none => []
    | some next => (if entry.source = some i then Server.replies server next else []) ++ repliesTo i log next

/-- What is in the log and in the connections fits together. The packets of a connection are the complete ones
among the bytes received; the bytes passed on to its peer, and then those in its queue, are the packets it was
sent, which the peer cuts apart again; while some are queued, `EPOLLOUT` is enabled. -/
structure Answered (begun : Server) (exchange : Exchange ι) : Prop where
  served : run (fun input : Event × Answers => Server.step input.1 input.2) (exchange.log.map Entry.input) begun =
    some exchange.server
  frames : ∀ i, exchange.log.filterMap (Entry.frameOf i) = (whole BoyaaDecoder.verdict (exchange.received i)).frames
  queued : ∀ i, (exchange.conn i).released = false →
    (exchange.conn i).accepted ++ (exchange.conn i).w.data = (repliesTo i exchange.log begun).flatten
  decoded : ∀ i, (exchange.conn i).released = false → ∃ delivered pending,
    whole BoyaaDecoder.verdict (exchange.conn i).accepted = ⟨delivered, pending, false⟩ ∧
      Progress (repliesTo i exchange.log begun) (exchange.conn i).accepted delivered pending
  armed : ∀ i, (exchange.conn i).released = false → (exchange.conn i).w.data ≠ [] →
    (exchange.conn i).newEvents.output = true
  closed : ∀ i, (exchange.conn i).released = true →
    (exchange.conn i).accepted <+: (repliesTo i exchange.log begun).flatten ++ policyResponse

variable {begun server after : Server} {exchange : Exchange ι} {i : ι} {log more : List (Entry ι)}
  {answers : Nat → Answers} {sends : Nat → SendResult} {left : PacketBase → PacketBase}

/-- The server after the log. -/
private def Serves (begun : Server) (log : List (Entry ι)) (server : Server) : Prop :=
  run (fun input : Event × Answers => Server.step input.1 input.2) (log.map Entry.input) begun = some server

omit [DecidableEq ι] in
private theorem Serves.snoc (serves : Serves begun log server) {entry : Entry ι}
    (ran : server.step entry.input.1 entry.input.2 = some after) : Serves begun (log ++ [entry]) after := by
  rw [Serves, List.map_append, run_append, serves]
  exact (Option.bind_fun_some _).trans ran

private theorem repliesTo_snoc (serves : Serves begun log server) {entry : Entry ι}
    (ran : server.step entry.input.1 entry.input.2 = some after) (i : ι) : repliesTo i (log ++ [entry]) begun =
      repliesTo i log begun ++ (if entry.source = some i then Server.replies server after else []) := by
  induction log generalizing begun with
  | nil =>
    obtain rfl := Option.some.inj serves
    simp [repliesTo, ran]
  | cons first log ih =>
    obtain ⟨middle, stepped, rest⟩ := Option.bind_eq_some_iff.mp serves
    simp only [List.cons_append, repliesTo, stepped]
    rw [ih rest, List.append_assoc]

private theorem bytesOf_sendings (sends : Nat → SendResult) (before after : Server) :
    bytesOf (sendings sends before after) = (Server.replies before after).flatten := by
  have buffs : (sendings sends before after).map Sending.buff = Server.replies before after := by
    rw [sendings, List.map_map]
    exact List.zipIdx_map_fst ..
  rw [bytesOf, List.flatMap_def, buffs]

/-- What is known between two packets of connection `i`. `stream` is all that it has received, `content` what is
left of it in the cache, and `sent` all that was passed to its `Send`. -/
private structure Serving (begun : Server) (exchange : Exchange ι) (i : ι) (stream content sent : List UInt8)
    (server : Server) (log : List (Entry ι)) : Prop where
  served : Serves begun log server
  brief : server.Brief
  stream : whole BoyaaDecoder.verdict stream = ⟨log.filterMap (Entry.frameOf i) ++
    (whole BoyaaDecoder.verdict content).frames, (whole BoyaaDecoder.verdict content).rest,
    (whole BoyaaDecoder.verdict content).failed⟩
  sent : sent = (repliesTo i log begun).flatten
  built : ∀ reply ∈ repliesTo i log begun, Built .network reply
  others : ∀ j, j ≠ i → log.filterMap (Entry.frameOf j) = exchange.log.filterMap (Entry.frameOf j) ∧
    repliesTo j log begun = repliesTo j exchange.log begun

/-- The same of the work of `OnPacketComplete`, while there is a server. -/
private def Works (begun : Server) (exchange : Exchange ι) (i : ι) (stream content sent : List UInt8) (work : Work ι) :
    Prop := ∀ server, work.1.1 = some server → Serving begun exchange i stream content sent server work.1.2

/-- One packet of connection `i`. -/
private theorem Serving.next {stream content sent : List UInt8}
    (serving : Serving begun exchange i stream content sent server log) (brief : ∀ call, (answers call).Brief)
    (positive : 0 < BoyaaDecoder.parsePacket content) (pPacket : PacketBase)
    (ran : server.processPacket (pPacket.copy (content.take (BoyaaDecoder.parsePacket content).toNat)).2
      (answers log.length) = some after) :
    Serving begun exchange i stream (content.drop (BoyaaDecoder.parsePacket content).toNat)
      (sent ++ (Server.replies server after).flatten) after
      (log ++ [.packet i (content.take (BoyaaDecoder.parsePacket content).toNat)
        (pPacket.copy (content.take (BoyaaDecoder.parsePacket content).toNat)).2 (answers log.length)]) ∧
      ∀ reply ∈ Server.replies server after, Built .network reply := by
  have built := (Server.serve_sends serving.brief (brief _) ran).replies.2
  have front : BoyaaDecoder.verdict content = .frame (BoyaaDecoder.parsePacket content).toNat := by
    rw [StreamDecoder.verdict, if_neg (by omega), if_neg (by omega)]
  have settled : Settled BoyaaDecoder.verdict := matchingDecoder_settled .network
  generalize taken : content.take (BoyaaDecoder.parsePacket content).toNat = frame at *
  let entry : Entry ι := .packet i frame (pPacket.copy frame).2 (answers log.length)
  have stepped : server.step entry.input.1 entry.input.2 = some after := ran
  have source : entry.source = some i := rfl
  have replied := repliesTo_snoc serving.served stepped
  refine ⟨⟨serving.served.snoc stepped, Server.step_brief serving.brief (brief _) stepped, ?_, ?_, ?_,
    fun j different => ⟨?_, ?_⟩⟩, built⟩
  · rw [serving.stream, settled.whole_frame front, taken]
    simp [Entry.frameOf]
  · rw [replied i, serving.sent, if_pos source, List.flatten_append]
  · rw [replied i, if_pos source]
    intro reply member
    exact (List.mem_append.mp member).elim (serving.built reply) (built reply)
  · simp [Entry.frameOf, different.symm, (serving.others j different).1]
  · rw [replied j, source, if_neg (by simpa using different.symm), List.append_nil]
    exact (serving.others j different).2

private theorem works_kept (begun : Server) (exchange : Exchange ι) (i : ι) (stream : List UInt8)
    (brief : ∀ call, (answers call).Brief) (fine : ∀ call, sends call ≠ .fatal) :
    Connection.KeptBy BoyaaDecoder (onPacketComplete left i answers sends) (Works begun exchange i stream) := by
  rintro content sent ⟨⟨server, log⟩, pPacket⟩ calls ret next works positive answer
  have quiet (work : Work ι) (none : work.1.1 = none) : Connection.Small [] ∧ ¬ Fails [] ∧ (0 : Int) ≤ 0 ∧
      Works begun exchange i stream (content.drop (BoyaaDecoder.parsePacket content).toNat) (sent ++ bytesOf []) work :=
    ⟨by simp [Connection.Small], by simp [Fails], Int.le_refl 0, fun server there => by simp [none] at there⟩
  cases server with
  | none =>
    cases answer
    exact quiet _ rfl
  | some server =>
    simp only [onPacketComplete] at answer
    split at answer
    · cases answer
      exact quiet _ rfl
    · rename_i after ran
      cases answer
      obtain ⟨serving, built⟩ := (works server rfl).next brief positive pPacket ran
      refine ⟨?_, ?_, Int.le_refl 0, ?_⟩
      · intro call member
        obtain ⟨reply, listed, rfl⟩ := List.mem_map.mp member
        have small := (built reply.1 (List.fst_mem_of_mem_zipIdx listed)).small
        change reply.1.length < 2 ^ 31
        omega
      · rintro ⟨call, member, _, fatal⟩
        obtain ⟨reply, _, rfl⟩ := List.mem_map.mp member
        exact fine _ fatal
      · rintro other there
        obtain rfl := Option.some.inj there
        rw [bytesOf_sendings]
        exact serving

/-- A connection between two events. -/
private structure InOrder (begun : Server) (exchange : Exchange ι) (i : ι) : Prop where
  frames : exchange.log.filterMap (Entry.frameOf i) = (whole BoyaaDecoder.verdict (exchange.received i)).frames
  built : ∀ reply ∈ repliesTo i exchange.log begun, Built .network reply
  opened : (exchange.conn i).released = false → (whole BoyaaDecoder.verdict (exchange.received i)).failed = false ∧
    ∃ queue, (exchange.conn i).Ready (whole BoyaaDecoder.verdict (exchange.received i)).rest queue ∧
      (exchange.conn i).accepted ++ queue = (repliesTo i exchange.log begun).flatten
  closed : (exchange.conn i).accepted <+: (repliesTo i exchange.log begun).flatten ++ policyResponse

private structure Consistent (begun : Server) (exchange : Exchange ι) : Prop where
  served : Serves begun exchange.log exchange.server
  brief : exchange.server.Brief
  ordered : ∀ i, InOrder begun exchange i

private theorem start_consistent (brief : begun.Brief) : Consistent begun (start begun : Exchange ι) where
  served := rfl
  brief := brief
  ordered _ := ⟨rfl, by simp [start, repliesTo], fun _ => ⟨rfl, [], Connection.connected_ready blank, rfl⟩,
    List.nil_prefix⟩

/-- The other connections see nothing of it. -/
private theorem InOrder.other {next : Exchange ι} (ordered : InOrder begun exchange i)
    (conn : next.conn i = exchange.conn i) (received : next.received i = exchange.received i)
    (frames : next.log.filterMap (Entry.frameOf i) = exchange.log.filterMap (Entry.frameOf i))
    (replies : repliesTo i next.log begun = repliesTo i exchange.log begun) : InOrder begun next i where
  frames := by rw [frames, received, ordered.frames]
  built := by rw [replies]; exact ordered.built
  opened := by rw [conn, received, replies]; exact ordered.opened
  closed := by rw [conn, replies]; exact ordered.closed

/-- An event of a connection that is open. -/
private theorem polled_consistent {allocate : Nat → Option Nat} (grants : ∀ size, RawCache.Grants allocate size)
    (consistent : Consistent begun exchange) (alive : (exchange.conn i).released = false)
    {event : Connection.PollerEvent} (proper : event.Proper) (brief : ∀ call, (answers call).Brief)
    (fine : ∀ call, sends call ≠ .fatal) {work : Connection (Work ι)}
    (ran : ((exchange.conn i).handing (((some exchange.server, exchange.log), (exchange.conn i).handler) :
      Work ι)).processPollerEvents allocate BoyaaDecoder (onPacketComplete left i answers sends) event = some work)
    (there : work.handler.1.1 = some after) : Consistent begun
      { conn := Function.update exchange.conn i (work.handing work.handler.2)
        server := after
        log := work.handler.1.2
        received := Function.update exchange.received i (exchange.received i ++ event.piece) } := by
  have ordered := consistent.ordered i
  obtain ⟨whole', queue, ready, sent⟩ := ordered.opened alive
  have settled : Settled BoyaaDecoder.verdict := matchingDecoder_settled .network
  have begins : Works begun exchange i (exchange.received i ++ event.piece)
      ((whole BoyaaDecoder.verdict (exchange.received i)).rest ++ event.piece)
      (((exchange.conn i).handing (((some exchange.server, exchange.log), (exchange.conn i).handler) :
        Work ι)).accepted ++ queue) ((some exchange.server, exchange.log), (exchange.conn i).handler) := by
    intro server same
    obtain rfl := Option.some.inj same
    refine ⟨consistent.served, consistent.brief, ?_, sent, ordered.built, fun j _ => ⟨rfl, rfl⟩⟩
    rw [settled.whole_append, if_neg (by simp [whole']), ordered.frames]
  obtain ⟨kept, passed, failed, leaves⟩ := Connection.processPollerEvents_leaves
    (works_kept begun exchange i (exchange.received i ++ event.piece) brief fine) grants
    (Connection.undelivered_rest settled whole') (ready.handing _) proper begins ran
  have serving := leaves.keeps after there
  have stream := serving.stream
  rw [leaves.undelivered, List.append_nil] at stream
  refine ⟨serving.served, serving.brief, fun j => ?_⟩
  by_cases same : j = i
  · subst same
    refine ⟨?_, serving.built, ?_, ?_⟩
    · simp only [Function.update_self, stream]
    · intro still
      simp only [Function.update_self, stream] at still ⊢
      obtain ⟨rfl, left, last, total⟩ := leaves.opened still
      exact ⟨rfl, left, last.handing _, total.trans serving.sent⟩
    · simp only [Function.update_self]
      have front := leaves.closed
      rwa [serving.sent] at front
  · refine (consistent.ordered j).other (Function.update_of_ne same ..) (Function.update_of_ne same ..) ?_ ?_
    · exact (serving.others j same).1
    · exact (serving.others j same).2

private theorem turn_consistent {allocate : Nat → Option Nat} (grants : ∀ size, RawCache.Grants allocate size)
    (consistent : Consistent begun exchange) {occurrence : Occurrence ι} (proper : occurrence.Proper)
    {next : Exchange ι} (ran : turn allocate left occurrence exchange = some next) : Consistent begun next := by
  cases occurrence with
  | event event answers =>
    obtain ⟨brief, other⟩ := proper
    obtain ⟨server, stepped, rfl⟩ := Option.map_eq_some_iff.mp ran
    refine ⟨consistent.served.snoc stepped, Server.step_brief consistent.brief brief stepped, fun i => ?_⟩
    refine (consistent.ordered i).other rfl rfl ?_ ?_
    · simp [Entry.frameOf]
    · exact (@repliesTo_snoc _ _ begun exchange.server server exchange.log consistent.served (.event event answers)
        stepped i).trans (List.append_nil _)
  | poll i event answers sends =>
    obtain ⟨proper, brief, fine⟩ := proper
    obtain ⟨work, polled, rest⟩ := Option.bind_eq_some_iff.mp ran
    obtain ⟨server, there, same⟩ := Option.bind_eq_some_iff.mp rest
    obtain rfl := Option.some.inj same
    cases released : (exchange.conn i).released with
    | true =>
      -- a released handler is not called any more
      have gone : ((exchange.conn i).handing (((some exchange.server, exchange.log), (exchange.conn i).handler) :
        Work ι)).released = true := released
      rw [Connection.processPollerEvents, if_pos gone] at polled
      obtain rfl := Option.some.inj polled
      obtain rfl := Option.some.inj there
      have unmoved : Function.update exchange.conn i (exchange.conn i) = exchange.conn := Function.update_eq_self ..
      change Consistent begun ⟨Function.update exchange.conn i (exchange.conn i), exchange.server, exchange.log, _⟩
      rw [unmoved, if_pos rfl]
      exact consistent
    | false =>
      have next := polled_consistent grants consistent released proper brief fine polled there
      rwa [if_neg (by simp)]

private theorem Consistent.answered (consistent : Consistent begun exchange) : exchange.Answered begun where
  served := consistent.served
  frames i := (consistent.ordered i).frames
  queued i alive := by
    obtain ⟨_, queue, ready, sent⟩ := (consistent.ordered i).opened alive
    rw [ready.queued.data, sent]
  decoded i alive := by
    obtain ⟨_, queue, _, sent⟩ := (consistent.ordered i).opened alive
    have recognised : ∀ reply ∈ repliesTo i exchange.log begun, Recognised BoyaaDecoder.verdict reply :=
      fun reply member => @built_recognised .network _ ((consistent.ordered i).built reply member)
    have front : (exchange.conn i).accepted <+: (repliesTo i exchange.log begun).flatten := ⟨queue, sent⟩
    exact drain_frames recognised front (Nat.le_refl _)
  armed i alive waiting := by
    obtain ⟨_, queue, ready, _⟩ := (consistent.ordered i).opened alive
    rw [ready.queued.data] at waiting
    exact ready.output.mpr waiting
  closed i _ := (consistent.ordered i).closed

private theorem run_consistent {allocate : Nat → Option Nat} (grants : ∀ size, RawCache.Grants allocate size)
    {occurrences : List (Occurrence ι)} (proper : ∀ occurrence ∈ occurrences, occurrence.Proper)
    (consistent : Consistent begun exchange) {reached : Exchange ι}
    (ran : run (turn allocate left) occurrences exchange = some reached) : Consistent begun reached := by
  induction occurrences generalizing exchange with
  | nil =>
    obtain rfl := Option.some.inj ran
    exact consistent
  | cons occurrence occurrences ih =>
    obtain ⟨middle, turned, rest⟩ := Option.bind_eq_some_iff.mp ran
    exact ih (fun later member => proper later (List.mem_cons_of_mem _ member))
      (turn_consistent grants consistent (proper occurrence (List.mem_cons_self ..)) turned) rest

/-- Whatever comes in on the connections, in whatever portions, and however the kernel takes what is sent:
each peer gets the replies to its own packets, in order, and nothing else. -/
theorem replies_in_order {allocate : Nat → Option Nat} (grants : ∀ size, RawCache.Grants allocate size)
    (left : PacketBase → PacketBase) (brief : begun.Brief) {occurrences : List (Occurrence ι)}
    (proper : ∀ occurrence ∈ occurrences, occurrence.Proper) {reached : Exchange ι}
    (ran : run (turn allocate left) occurrences (start begun) = some reached) : reached.Answered begun :=
  (run_consistent grants proper (start_consistent brief) ran).answered

/-- The hall of a user is asked for. -/
def hallIdRequest (uid : UInt8) : List UInt8 := [0, 11, 66, 89, 1, 1, 0, 161, 0, 0, 0, 0, uid]

/-- The answer for a user who is not known. -/
def noHallId (uid : UInt8) : List UInt8 := [0, 15, 66, 89, 1, 1, 0, 161, 0, 0, 0, 0, uid, 255, 255, 255, 255]

/-- Two questions on one connection, cut inside the second, and one on the other in between; the kernel takes
the answers to the first connection in portions. -/
def questions : List (Occurrence Bool) :=
  [.poll false ⟨false, some ⟨.bytes (hallIdRequest 7 ++ (hallIdRequest 8).take 5), .full⟩, none⟩
      (fun _ => Server.quiet 1000) fun _ => .part 4,
    .poll true ⟨false, some ⟨.bytes (hallIdRequest 9), .full⟩, none⟩ (fun _ => Server.quiet 1001) fun _ => .full,
    .event .flushCheck (Server.quiet 1002),
    .poll false ⟨false, some ⟨.bytes ((hallIdRequest 8).drop 5), .full⟩, some (.part 20)⟩
      (fun _ => Server.quiet 1003) fun _ => .again]

theorem replies_in_order_questions : ∃ reached,
    run (turn RawCache.limitedPool id) questions (start (Server.initial 2 0)) = some reached ∧
      (reached.conn false).accepted = noHallId 7 ++ (noHallId 8).take 7 ∧
      (reached.conn true).accepted = noHallId 9 ∧ reached.Answered (Server.initial 2 0) := by
  have facts : (run (turn RawCache.limitedPool id) questions (start (Server.initial 2 0))).map (fun reached =>
      ((reached.conn false).accepted, (reached.conn true).accepted)) =
        some (noHallId 7 ++ (noHallId 8).take 7, noHallId 9) := by decide +kernel
  obtain ⟨reached, ran, taken⟩ := Option.map_eq_some_iff.mp facts
  obtain ⟨first, second⟩ := Prod.mk.inj taken
  have brief : (Server.initial 2 0).Brief := by
    simp [Server.Brief, Server.initial, Options.initial, Options.getServer]
  have silent (time : Int32) : (Server.quiet time).Brief := by simp [Answers.Brief, Server.quiet, itemSize]
  have proper : ∀ occurrence ∈ questions, occurrence.Proper := by
    have fits (chunk : List UInt8) (output : Option SendResult) (some' : chunk ≠ [])
        (few : chunk.length ≤ maxWebRecvLen) :
        Connection.PollerEvent.Proper ⟨false, some ⟨.bytes chunk, .full⟩, output⟩ := by
      rintro arrival same
      obtain rfl := Option.some.inj same
      refine ⟨fun received taken => ?_, by simp⟩
      obtain rfl := RecvResult.bytes.inj taken
      exact ⟨some', few⟩
    intro occurrence member
    simp only [questions, List.mem_cons, List.not_mem_nil, or_false] at member
    rcases member with rfl | rfl | rfl | rfl
    · exact ⟨fits _ _ (by decide) (by decide), fun _ => silent _, by simp⟩
    · exact ⟨fits _ _ (by decide) (by decide), fun _ => silent _, by simp⟩
    · exact ⟨silent _, by simp⟩
    · exact ⟨fits _ _ (by decide) (by decide), fun _ => silent _, by simp⟩
  exact ⟨reached, ran, first, second, replies_in_order RawCache.limitedPool_grants id brief proper ran⟩

end Exchange

end TeenpattiUserServer.UserServer
