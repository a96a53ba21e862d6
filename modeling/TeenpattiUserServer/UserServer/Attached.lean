import TeenpattiUserServer.UserServer.Process

/-! The server on its segment: whatever is requested of it, and however often the process
is replaced, it does over the shared memory what it does over the table of users. -/

namespace TeenpattiUserServer.UserServer

open Bookkeeping Shm

namespace Handling

variable {α β : Type} {nodes : Nat} {server : Server}

/-- What a part of a handler makes of a server. -/
def on (nodes : Nat) (handling : Handling α) (server : Server) : Option (α × Server) :=
  let result := (handling server.process).eval (TableCall.answer nodes) server.gshm
  result.1.map fun outcome => (outcome.1, outcome.2.over result.2)

theorem on_pure (value : α) : (pure value : Handling α).on nodes server = some (value, server) := rfl

theorem on_bind (first : Handling α) (rest : α → Handling β) :
    (first >>= rest).on nodes server = (first.on nodes server).bind fun outcome => (rest outcome.1).on nodes outcome.2 := by
  have joined : (first >>= rest) server.process = (first server.process).bind (further rest) := rfl
  rw [on, joined, Client.eval_bind, on]
  generalize (first server.process).eval (TableCall.answer nodes) server.gshm = result
  obtain ⟨outcome, gshm⟩ := result
  cases outcome <;> rfl

theorem on_find (uid : Int32) : (find uid).on nodes server = some (server.find uid) := by
  cases found : (server.gshm.find uid).1 <;>
    simp [on, find, Client.eval, TableCall.answer, Server.find, Process.over, Server.process, found]

theorem on_setValue (user : GameUser) : (setValue user).on nodes server = some ((), server.setValue user) := rfl

theorem on_delete (uid : Int32) : (delete uid).on nodes server = some ((), server.delete uid) := rfl

theorem on_visit : visit.on nodes server = some (server.gshm.visit, server) := rfl

/-- A part that treats the users as it finds them. -/
def Apart (part : Server → Option (α × Server)) : Prop :=
  ∀ server gshm, part { server with gshm := gshm } = (part server).map fun outcome =>
    (outcome.1, { outcome.2 with gshm := gshm })

theorem on_aside {part : Server → Option (α × Server)} (apart : Apart part) :
    (aside part).on nodes server = part server := by
  have same := apart (server.process.over ⟨∅, 0⟩) server.gshm
  change ((part (server.process.over ⟨∅, 0⟩)).map _).map _ = _
  rw [Option.map_map]
  exact same.symm

/-- The same of a part without a result. -/
def Aloof (part : Server → Server) : Prop :=
  ∀ server gshm, part { server with gshm := gshm } = { part server with gshm := gshm }

theorem on_update {part : Server → Server} (aloof : Aloof part) :
    (update part).on nodes server = some ((), part server) :=
  on_aside fun server gshm => congrArg (fun after => some ((), after)) (aloof server gshm)

variable {answers : Answers} {uid svid tid : Int32} {terminalType level serverId : Int16} {user : GameUser}

section Primitives

theorem aloof_updateTerminalInfo (type : TerminalUpdate) : Aloof (·.updateTerminalInfo type terminalType) :=
  fun _ _ => rfl

theorem aloof_updateLevelInfo (type : LevelUpdate) : Aloof (·.updateLevelInfo type level) := fun _ _ => rfl

theorem aloof_addOfflineUser (time : Int32) : Aloof (·.addOfflineUser uid time) := fun _ _ => rfl

theorem aloof_deleteOfflineUser : Aloof (·.deleteOfflineUser uid) := fun _ _ => rfl

theorem aloof_send (packet : Packet.PacketBase) : Aloof (·.send packet) := fun _ _ => rfl

theorem aloof_sendClientPacket (packet : Packet.PacketBase) : Aloof (·.sendClientPacket uid svid packet) :=
  fun _ _ => rfl

theorem aloof_logoutTable (seated : Bool) : Aloof (·.logoutTable seated user) := by
  intro server gshm
  simp only [Server.logoutTable]
  split <;> rfl

theorem aloof_loginTable : Aloof (·.loginTable user) := by
  intro server gshm
  simp only [Server.loginTable]
  split <;> rfl

theorem aloof_logoutLevel : Aloof (·.logoutLevel user) := by
  intro server gshm
  simp only [Server.logoutLevel]
  split <;> rfl

theorem on_findServer : (findServer answers serverId).on nodes server = some (server.findServer answers serverId) :=
  on_aside fun _ _ => rfl

end Primitives

theorem on_processClientClose :
    (processClientClose answers uid).on nodes server = some ((), server.processClientClose answers uid) := by
  rw [processClientClose, Server.processClientClose, on_bind, on_find, Option.bind_some]
  rcases server.find uid with ⟨found, server⟩
  cases found with
  | none => rfl
  | some user =>
    by_cases seated : 0 < user.tid
    · simp only [seated, if_true, on_bind, on_update, aloof_addOfflineUser, Option.bind_some, on_setValue]
    · simp only [seated, if_false, on_bind, on_update, aloof_deleteOfflineUser, aloof_updateTerminalInfo,
        Option.bind_some, on_delete]

theorem on_processReportUserLeaveRoom : (processReportUserLeaveRoom answers uid).on nodes server =
    some ((), server.processReportUserLeaveRoom answers uid) := by
  rw [processReportUserLeaveRoom, Server.processReportUserLeaveRoom, on_bind, on_find, Option.bind_some]
  rcases server.find uid with ⟨found, server⟩
  cases found with
  | none => rfl
  | some user =>
    simp only [on_bind, on_update, aloof_logoutTable, aloof_logoutLevel, Option.bind_some, on_setValue]

theorem on_processReportUserEnterRoom : (processReportUserEnterRoom answers uid tid).on nodes server =
    some ((), server.processReportUserEnterRoom answers uid tid) := by
  rw [processReportUserEnterRoom, Server.processReportUserEnterRoom, on_bind, on_find, Option.bind_some]
  rcases server.find uid with ⟨found, server⟩
  cases found with
  | none => rfl
  | some user =>
    simp only [on_bind, on_update, aloof_loginTable, Option.bind_some, on_findServer]
    rcases (server.loginTable user).findServer answers (tid >>> 16).toInt16 with ⟨logic, server⟩
    cases logic with
    | none => rfl
    | some logic =>
      by_cases moved : logic.level ≠ user.serverLevel
      · simp only [moved, ne_eq, not_false_eq_true, if_true, on_bind, on_update, aloof_logoutLevel,
          aloof_updateLevelInfo, Option.bind_some, on_setValue]
      · simp only [moved, if_false, on_setValue]

theorem on_processReportUserStandRoom : (processReportUserStandRoom answers uid tid).on nodes server =
    some ((), server.processReportUserStandRoom answers uid tid) := by
  rw [processReportUserStandRoom, Server.processReportUserStandRoom, on_bind, on_find, Option.bind_some]
  rcases server.find uid with ⟨found, server⟩
  cases found with
  | none => rfl
  | some user =>
    simp only [on_bind, on_update, aloof_updateTerminalInfo, Option.bind_some, on_findServer]
    rcases (server.updateTerminalInfo .standTable user.terminalType).findServer answers (tid >>> 16).toInt16 with
      ⟨logic, server⟩
    cases logic with
    | none => rfl
    | some logic => exact on_update (aloof_updateLevelInfo .standIn)

theorem on_processReportStandLeaveRoom : (processReportStandLeaveRoom uid).on nodes server =
    some ((), server.processReportStandLeaveRoom uid) := by
  rw [processReportStandLeaveRoom, Server.processReportStandLeaveRoom, on_bind, on_find, Option.bind_some]
  rcases server.find uid with ⟨found, server⟩
  cases found with
  | none => rfl
  | some user =>
    simp only [on_bind, on_update, aloof_updateTerminalInfo, Option.bind_some]
    by_cases levelled : user.serverLevel ≠ -1
    · simp only [levelled, ne_eq, not_false_eq_true, if_true, on_update, aloof_updateLevelInfo]
    · simp only [levelled, if_false, on_pure]

theorem on_processGetUserHallId : (processGetUserHallId uid).on nodes server =
    some ((), server.processGetUserHallId uid) := by
  rw [processGetUserHallId, Server.processGetUserHallId, on_bind, on_find, Option.bind_some]
  rcases server.find uid with ⟨found, server⟩
  cases found with
  | none => exact on_update (aloof_send _)
  | some user => exact on_update (aloof_send _)

theorem on_processGetUserTable {sid : Int32} : (processGetUserTable answers uid svid level sid).on nodes server =
    some ((), server.processGetUserTable answers uid svid level sid) := by
  rw [processGetUserTable, Server.processGetUserTable, on_bind, on_find, Option.bind_some]
  rcases server.find uid with ⟨found, server⟩
  cases found with
  | none => exact on_update (aloof_send _)
  | some user =>
    by_cases seated : 0 < user.tid
    · simp only [seated, if_true, on_bind, on_findServer, Option.bind_some, on_setValue, on_update, aloof_send]
      rcases server.findServer answers (user.tid >>> 16).toInt16 with ⟨logic, server⟩
      cases logic <;> rfl
    · simp only [seated, if_false, on_update, aloof_send]

private theorem apart_enterHall {userId : Int32} (found : Option GameUser) :
    Apart fun server => some (server.enterHall answers uid svid userId terminalType found) := by
  intro server gshm
  cases found with
  | none => rfl
  | some user =>
    simp only [Server.enterHall, Option.map_some]
    split <;> rfl

private theorem apart_tableServer : Apart fun server => some (server.tableServer answers tid) := by
  intro server gshm
  simp only [Server.tableServer, Option.map_some]
  split <;> rfl

theorem on_processUserLogin {userId : Int32} :
    (processUserLogin answers uid svid userId terminalType).on nodes server =
      some ((), server.processUserLogin answers uid svid userId terminalType) := by
  rw [processUserLogin, Server.processUserLogin]
  by_cases refused : userId ≤ 0
  · simp only [refused, if_true, on_pure]
  · simp only [refused, if_false, on_bind, on_find, Option.bind_some, on_aside (apart_enterHall _), on_update,
      aloof_deleteOfflineUser, on_aside apart_tableServer, on_setValue, aloof_sendClientPacket]

/-- A loop does input by input what its body does. -/
theorem on_forM {γ : Type} {body : γ → Handling Unit} {turn : Server → γ → Server}
    (each : ∀ input server, (body input).on nodes server = some ((), turn server input)) (inputs : List γ) :
    (inputs.forM body).on nodes server = some ((), inputs.foldl turn server) := by
  induction inputs generalizing server with
  | nil => rfl
  | cons input inputs ih =>
    change (body input >>= fun _ => inputs.forM body).on nodes server = _
    rw [on_bind, each, Option.bind_some]
    exact ih

theorem on_change (alter : GameUser → GameUser) :
    (change alter uid).on nodes server = some ((), server.change alter uid) := by
  rw [change, Server.change, on_bind, on_find, Option.bind_some]
  rcases server.find uid with ⟨found, server⟩
  cases found <;> rfl

/-- A walk over users that were read before, if each visit treats those of the server as it finds them. -/
private theorem apart_walk {γ : Type} {turn : Server × γ → GameUser → Server × γ}
    (each : ∀ (server : Server) gshm collected user, turn ({ server with gshm := gshm }, collected) user =
      ({ (turn (server, collected) user).1 with gshm := gshm }, (turn (server, collected) user).2))
    (users : List GameUser) (start : γ) : Apart fun server =>
      some ((users.foldl turn (server, start)).2, (users.foldl turn (server, start)).1) := by
  intro server gshm
  have walk : users.foldl turn ({ server with gshm := gshm }, start) =
      ({ (users.foldl turn (server, start)).1 with gshm := gshm }, (users.foldl turn (server, start)).2) := by
    induction users generalizing server start with
    | nil => rfl
    | cons user users ih =>
      rw [List.foldl_cons, List.foldl_cons, each]
      exact ih _ _
  simp only [walk, Option.map_some]

theorem on_setServerUserTid0 : (setServerUserTid0 serverId).on nodes server =
    some ((), server.setServerUserTid0 serverId) := by
  have each (server : Server) (gshm : GameUserSHM) (tid0User : List Int32) (user : GameUser) :
      Server.tid0Visit serverId ({ server with gshm := gshm }, tid0User) user =
        ({ (Server.tid0Visit serverId (server, tid0User) user).1 with gshm := gshm },
          (Server.tid0Visit serverId (server, tid0User) user).2) := by
    simp only [Server.tid0Visit, Server.logoutTable, Server.logoutLevel]
    split_ifs <;> rfl
  simp only [setServerUserTid0, Server.setServerUserTid0, on_bind, on_visit, Option.bind_some,
    on_aside (apart_walk each _ _)]
  exact on_forM (fun _ _ => on_change _) _

theorem on_processLogicCore : (processLogicCore serverId).on nodes server =
    some ((), server.processLogicCore serverId) := by
  have aloof : Aloof fun server => { server with options := server.options.deleteLogicServer serverId } :=
    fun _ _ => rfl
  simp only [processLogicCore, Server.processLogicCore, on_bind, on_update aloof, Option.bind_some,
    on_setServerUserTid0]

theorem on_setUserOfflineHallCore {hid : Int32} : (setUserOfflineHallCore answers hid).on nodes server =
    some ((), server.setUserOfflineHallCore answers hid) := by
  have each (server : Server) (gshm : GameUserSHM) (collected : List Int32 × Nat) (user : GameUser) :
      Server.hallCoreVisit answers hid ({ server with gshm := gshm }, collected) user =
        ({ (Server.hallCoreVisit answers hid (server, collected) user).1 with gshm := gshm },
          (Server.hallCoreVisit answers hid (server, collected) user).2) := by
    simp only [Server.hallCoreVisit]
    cases server.options.offlineUserMgr[user.uid]? <;> split_ifs <;> rfl
  simp only [setUserOfflineHallCore, Server.setUserOfflineHallCore, on_bind, on_visit, Option.bind_some,
    on_aside (apart_walk each _ _)]
  exact on_forM (fun _ _ => on_change _) _

theorem on_offlineStep (now : Int32) (entry : Int32 × Int32) :
    (offlineStep now entry).on nodes server = some ((), server.offlineStep now entry) := by
  rw [offlineStep, Server.offlineStep]
  by_cases late : now - entry.2 ≥ 5 * 60
  · simp only [late, if_true, on_bind, on_find, Option.bind_some]
    rcases server.find entry.1 with ⟨found, server⟩
    cases found with
    | none => exact on_update aloof_deleteOfflineUser
    | some user =>
      simp only [on_bind, on_update, aloof_updateTerminalInfo, aloof_logoutTable, aloof_logoutLevel,
        aloof_deleteOfflineUser, Option.bind_some, on_delete]
  · simp only [late, if_false, on_pure]

theorem on_processOfflineCheck : (processOfflineCheck answers).on nodes server =
    some ((), server.processOfflineCheck answers) := by
  have apart : Apart fun server => some (server.options.offlineUserMgr.toList, server) := fun _ _ => rfl
  simp only [processOfflineCheck, Server.processOfflineCheck, on_bind, on_aside apart, Option.bind_some]
  exact on_forM (fun entry _ => on_offlineStep _ entry) _

theorem on_processFlushCheck : (processFlushCheck answers).on nodes server =
    some ((), server.processFlushCheck answers) := by
  have each (server : Server) (gshm : GameUserSHM) (needDelUser : List Int32) (user : GameUser) :
      Server.flushVisit (answers.time 0) ({ server with gshm := gshm }, needDelUser) user =
        ({ (Server.flushVisit (answers.time 0) (server, needDelUser) user).1 with gshm := gshm },
          (Server.flushVisit (answers.time 0) (server, needDelUser) user).2) := by
    simp only [Server.flushVisit, Server.logoutTable, Server.logoutLevel]
    split_ifs <;> rfl
  simp only [processFlushCheck, Server.processFlushCheck, on_bind, on_visit, Option.bind_some,
    on_aside (apart_walk each _ _)]
  exact on_forM (fun uid _ => on_delete uid) _

theorem on_reportStartTJData : reportStartTJData.on nodes server = some ((), server.reportStartTJData) := by
  have aloof (users : List GameUser) :
      Aloof fun server => { server with stat := users.foldl Server.startVisit server.stat } := fun _ _ => rfl
  simp only [reportStartTJData, Server.reportStartTJData, on_bind, on_visit, Option.bind_some, on_update (aloof _)]

private theorem apart_levelNums (call : Nat) (levels : List Int16) :
    Apart (Server.levelNums answers call levels) := by
  intro server gshm
  induction levels generalizing server call with
  | nil => rfl
  | cons level levels ih =>
    by_cases zero : server.options.roundLimit = 0
    · simp [Server.levelNums, Server.getRand, zero]
    · simp only [Server.levelNums, Server.getRand, zero, if_false, Option.bind_eq_bind, Option.bind_some]
      have further := ih (call + 1) { server with
        randCount := (if 1000000000 < server.randCount then 0 else server.randCount) + 1 }
      rw [further]
      generalize Server.levelNums answers (call + 1) levels _ = result
      cases result <;> rfl

private theorem aloof_processSynData (records : List (Int16 × Int32 × Int32)) : Aloof (·.processSynData records) := by
  intro server gshm
  simp only [Server.processSynData]
  induction records generalizing server with
  | nil => rfl
  | cons record records ih =>
    exact ih { server with options := server.options.setLevelCount record.1 record.2.1 record.2.2 }

private theorem aloof_processSetLevelCountRandom (key : List UInt8) :
    Aloof (·.processSetLevelCountRandom answers key) := by
  intro server gshm
  simp only [Server.processSetLevelCountRandom]
  split_ifs
  · rfl
  · cases answers.randomConfig <;> rfl

/-- Each handler does on the segment what it does on the table. -/
theorem on_serve (request : Request) : (serve request answers).on nodes server =
    (server.serve request answers).map fun after => ((), after) := by
  cases request with
  | getUserTable => exact on_processGetUserTable
  | userLogin => exact on_processUserLogin
  | getRoomLevelNum uid svid levelCount levels =>
    have apart : Apart fun server =>
        (server.processGetRoomLevelNum answers uid svid levelCount levels).map fun after => ((), after) := by
      intro server gshm
      simp only [Server.processGetRoomLevelNum, apart_levelNums 0 levels server gshm, Option.bind_eq_bind]
      generalize Server.levelNums answers 0 levels server = result
      cases result <;> rfl
    exact on_aside apart
  | clientClose => exact on_processClientClose
  | userLeaveRoom => exact on_processReportUserLeaveRoom
  | userEnterRoom => exact on_processReportUserEnterRoom
  | userStandRoom => exact on_processReportUserStandRoom
  | standLeaveRoom => exact on_processReportStandLeaveRoom
  | logicCore => exact on_processLogicCore
  | hallCore => exact on_setUserOfflineHallCore
  | clearServerInfo => exact on_update fun _ _ => rfl
  | tjSwitch => exact on_update fun _ _ => rfl
  | getUserHallId => exact on_processGetUserHallId
  | setLevelCountRandom key => exact on_update (aloof_processSetLevelCountRandom key)
  | ignored => rfl

theorem on_step (event : Event) : (step event answers).on nodes server =
    (server.step event answers).map fun after => ((), after) := by
  cases event with
  | request request => exact on_serve request
  | synData records => exact on_update (aloof_processSynData records)
  | offlineCheck => exact on_processOfflineCheck
  | flushCheck => exact on_processFlushCheck

theorem on_initSHM (os : SVShm.Answers) (unassigned : Int) (options : Options) :
    (initSHM os unassigned options).on nodes server =
      (server.live nodes (.begins os unassigned options)).map fun after => ((), after) := by
  have begins : (initSHM os unassigned options).on nodes server =
      if (TableCall.answer nodes (.init os unassigned) server.gshm).1.ret ≠ 0 then none
      else reportStartTJData.on nodes
        ⟨(TableCall.answer nodes (.init os unassigned) server.gshm).2, Stat.empty, options, 0, []⟩ := by
    simp only [on, initSHM, Client.eval]
    split <;> rfl
  rw [begins, Server.live]
  rcases TableCall.answer nodes (.init os unassigned) server.gshm with ⟨reply, gshm⟩
  by_cases failed : reply.ret ≠ 0
  · simp only [failed, ne_eq, not_false_eq_true, if_true, Option.map_none]
  · simp only [failed, if_false, on_reportStartTJData, Option.map_some]

theorem on_lives (lives : List Life) : (lives.forM Life.handle).on nodes server =
    (lives.foldlM (Server.live nodes) server).map fun after => ((), after) := by
  induction lives generalizing server with
  | nil => rfl
  | cons life lives ih =>
    have handled : life.handle.on nodes server = (server.live nodes life).map fun after => ((), after) := by
      cases life with
      | serves event answers => exact on_step event
      | begins os unassigned options => exact on_initSHM os unassigned options
    change (life.handle >>= fun _ => lives.forM Life.handle).on nodes server = _
    rw [on_bind, handled, List.foldlM_cons]
    cases server.live nodes life with
    | none => rfl
    | some after => exact ih

/-- A part of a handler on a segment that holds the users. -/
theorem run_attached {hash : Int32 → Nat} {pool : Pool Int32} (held : GameUserSHM.HeldIn hash nodes pool server.gshm)
    (handling : Handling α) : ∃ result after,
      (handling server.process).run (fun call => Store.Prog.exec (call.run hash nodes)) pool = some (result, after) ∧
        Option.Rel (fun outcome server => outcome.2.over server.2.gshm = server.2 ∧
          GameUserSHM.HeldIn hash nodes after server.2.gshm) result (handling.on nodes server) := by
  obtain ⟨after, ran, still⟩ := TableCall.simulates.client (handling server.process) held
  refine ⟨_, after, ran, ?_⟩
  rw [on]
  generalize (handling server.process).eval (TableCall.answer nodes) server.gshm = result at still
  obtain ⟨outcome, gshm⟩ := result
  cases outcome with
  | none => exact .none
  | some outcome => exact .some ⟨rfl, still⟩

end Handling

/-- Over its segment, from the creation on, the server does whatever is requested of it as over the table of users,
and no call on the segment faults. -/
theorem served_from_segment (hash : Int32 → Nat) (nodes : Nat) {os : SVShm.Answers}
    (created : SVShm.forceOpenAndAttach os = (0, 1)) (unassigned : Int) (options : Options) (memory : Pool Int32)
    (process : Process) (lives : List Life) : ∃ result pool,
      ((Life.begins os unassigned options :: lives).forM Life.handle process).run
        (fun call => Store.Prog.exec (call.run hash nodes)) memory = some (result, pool) ∧
      Option.Rel (fun outcome server => outcome.2.over server.gshm = server ∧
          GameUserSHM.HeldIn hash nodes pool server.gshm) result
        (lives.foldlM (Server.live nodes) ⟨⟨∅, nodes⟩, Stat.empty, options, 0, []⟩) := by
  obtain ⟨fresh, opened, empty⟩ := TableCall.exec_init_created hash nodes created unassigned memory
  let start : Server := ⟨⟨∅, nodes⟩, Stat.empty, options, 0, []⟩
  have held : GameUserSHM.HeldIn hash nodes fresh start.gshm := empty
  let rest : Handling Unit := Handling.reportStartTJData >>= fun _ => lives.forM Life.handle
  obtain ⟨result, pool, ran, same⟩ := Handling.run_attached held rest
  have served : rest.on nodes start = (lives.foldlM (Server.live nodes) start).map fun after => ((), after) := by
    rw [Handling.on_bind, Handling.on_reportStartTJData, Option.bind_some]
    exact Handling.on_lives lives
  refine ⟨result, pool, ?_, ?_⟩
  · have first : (Life.begins os unassigned options :: lives).forM Life.handle process =
        .ask (.init os unassigned) fun reply =>
          Client.bind (if reply.ret ≠ 0 then .done none else Handling.reportStartTJData start.process)
            (Handling.further fun _ => lives.forM Life.handle) := rfl
    rw [first, Client.run, opened, Option.bind_some]
    exact ran
  · rw [served] at same
    generalize lives.foldlM (Server.live nodes) start = final at same ⊢
    cases final with
    | none => cases same with | none => exact .none
    | some server => cases same with | some same => exact .some same

/-- A user logs in and sits down at a table, whose server has level 5; the next process finds the user there. -/
def seatedTwice : List Life :=
  let answers : Answers := ⟨fun _ => 1000, fun _ => 0, fun _ => [53, 44, 104, 44, 49], fun _ => [], none⟩
  [.serves (.request (.userLogin 7 1 7 3)) answers, .serves (.request (.userEnterRoom 7 65536)) answers,
    .begins ⟨-1, true, 5, 0, 0, 0, false⟩ 0 (Options.initial 2000)]

theorem served_from_segment_seatedTwice : ∃ process pool,
    ((Life.begins ⟨5, false, 0, 0, 0, 0, false⟩ 9 (Options.initial 0) :: seatedTwice).forM Life.handle
      ⟨Stat.empty, Options.initial 0, 0, []⟩).run
        (fun call => Store.Prog.exec (call.run (fun uid => uid.toUInt32.toNat) 2)) TableCall.rubble =
          some (some ((), process), pool) ∧ process.stat.levelPlay 5 = 1 ∧ process.stat.onPlay 3 = 1 := by
  obtain ⟨result, pool, ran, same⟩ := served_from_segment (fun uid => uid.toUInt32.toNat) 2
    (by decide : SVShm.forceOpenAndAttach ⟨5, false, 0, 0, 0, 0, false⟩ = (0, 1)) 9 (Options.initial 0)
    TableCall.rubble ⟨Stat.empty, Options.initial 0, 0, []⟩ seatedTwice
  obtain ⟨server, served, counts⟩ : ∃ server, seatedTwice.foldlM (Server.live 2)
      ⟨⟨∅, 2⟩, Stat.empty, Options.initial 0, 0, []⟩ = some server ∧ server.stat.levelPlay 5 = 1 ∧
        server.stat.onPlay 3 = 1 := ⟨_, rfl, by decide, by decide⟩
  rw [served] at same
  cases same with
  | some same =>
    refine ⟨_, pool, ran, ?_⟩
    rw [← same.1] at counts
    exact counts

end TeenpattiUserServer.UserServer
