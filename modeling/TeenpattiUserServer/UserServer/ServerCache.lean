import TeenpattiUserServer.Bookkeeping.Views
import TeenpattiUserServer.UserServer.Run

/-! The list of game servers: it remembers what memcached said of a server until the
server fails or all of them are forgotten, and memcached is not asked in between. -/

namespace TeenpattiUserServer.UserServer

open Std Bookkeeping

/-- What is remembered of a server stays, or it is asked of memcached for the first time. -/
def Asked (answers : Answers) (serverId : Int16) (old new : Option LogicServer) : Prop :=
  new = old ∨ old = none ∧ ∃ level ip port, getServerInfoFromMc answers serverId = some (level, ip, port) ∧
    new = some ⟨serverId, level, ip, port⟩

/-- The events after which a server is not remembered. -/
def forgets (serverId : Int16) (event : Event) : Bool :=
  match event with
  | .request .clearServerInfo => true
  | .request (.logicCore core) => core = serverId
  | _ => false

/-- The moves of what is remembered of a server. -/
def Remembers (serverId : Int16) (input : Event × Answers) (old new : Option LogicServer) : Prop :=
  if forgets serverId input.1 then new = none else Asked input.2 serverId old new

theorem Asked.trans {answers : Answers} {serverId : Int16} {old middle new : Option LogicServer}
    (first : Asked answers serverId old middle) (second : Asked answers serverId middle new) :
    Asked answers serverId old new := by
  rcases first with rfl | ⟨none, level, ip, port, answer, rfl⟩
  · exact second
  · rcases second with rfl | ⟨some', _⟩
    · exact .inr ⟨none, level, ip, port, answer, rfl⟩
    · cases some'

/-- What a handler may do with the options, as far as the servers, the start and the reports go. -/
structure Recalls (answers : Answers) (before after : Options) : Prop where
  startTime : after.startTime = before.startTime
  interval : after.tjInteval = before.tjInteval
  servers : ∀ serverId, Asked answers serverId (before.getServer serverId) (after.getServer serverId)

namespace Recalls

variable {answers : Answers} {before middle after : Options}

theorem of_same (startTime : after.startTime = before.startTime) (interval : after.tjInteval = before.tjInteval)
    (serverList : after.serverList = before.serverList) : Recalls answers before after :=
  ⟨startTime, interval, fun serverId => .inl (by rw [Options.getServer, serverList, Options.getServer])⟩

theorem refl (options : Options) : Recalls answers options options := of_same rfl rfl rfl

theorem trans (first : Recalls answers before middle) (second : Recalls answers middle after) :
    Recalls answers before after :=
  ⟨second.startTime.trans first.startTime, second.interval.trans first.interval,
    fun serverId => (first.servers serverId).trans (second.servers serverId)⟩

end Recalls

/-- What an event may do with the options: three requests edit them, the others ask for servers. -/
inductive Edits (answers : Answers) : Event → Options → Options → Prop
  | core {options : Options} (serverId : Int16) :
      Edits answers (.request (.logicCore serverId)) options (options.deleteLogicServer serverId)
  | clear {options : Options} : Edits answers (.request .clearServerInfo) options options.clearServerList
  | tjSwitch {options : Options} (tjSwitch tjInteval : Int32) :
      Edits answers (.request (.tjSwitch tjSwitch tjInteval)) options (options.setTjSwitch tjSwitch tjInteval)
  | asks {event : Event} {before after : Options} (keeps : ∀ serverId, forgets serverId event = false)
      (recalls : Recalls answers before after) : Edits answers event before after

private theorem toInt32_inj {one two : Int16} (same : one.toInt32 = two.toInt32) : one = two := by
  have back := congrArg Int32.toInt16 same
  simpa using back

private theorem getServer_add (options : Options) (server : LogicServer) (serverId : Int16) :
    (options.addLogicServer server).getServer serverId =
      if serverId = server.serverId then some server else options.getServer serverId := by
  by_cases same : serverId = server.serverId
  · simp [Options.getServer, Options.addLogicServer, same]
  · have different : ¬ server.serverId.toInt32 = serverId.toInt32 := fun equal => same (toInt32_inj equal).symm
    simp [Options.getServer, Options.addLogicServer, TreeMap.getElem?_insert, same, different]

private theorem getServer_delete (options : Options) (core serverId : Int16) :
    (options.deleteLogicServer core).getServer serverId =
      if core = serverId then none else options.getServer serverId := by
  by_cases same : core = serverId
  · simp [Options.getServer, Options.deleteLogicServer, same]
  · have different : ¬ core.toInt32 = serverId.toInt32 := fun equal => same (toInt32_inj equal)
    simp [Options.getServer, Options.deleteLogicServer, TreeMap.getElem?_erase, same, different]

namespace Server

variable {answers : Answers} {server after : Server}

private theorem recalls_findServer (server : Server) (serverId : Int16) :
    Recalls answers server.options (server.findServer answers serverId).2.options := by
  simp only [findServer, Options.findServer]
  cases known : server.options.getServer serverId with
  | some logic => exact .refl _
  | none =>
    cases answer : getServerInfoFromMc answers serverId with
    | none => exact .refl _
    | some answered =>
      refine ⟨rfl, rfl, fun other => ?_⟩
      simp only [getServer_add]
      by_cases same : other = serverId
      · subst same
        rw [if_pos rfl]
        exact .inr ⟨known, answered.1, answered.2.1, answered.2.2, answer, rfl⟩
      · rw [if_neg same]
        exact .inl rfl

private theorem recalls_tableServer (server : Server) (tid : Int32) :
    Recalls answers server.options (server.tableServer answers tid).2.options := by
  rw [tableServer]
  split
  · exact recalls_findServer ..
  · exact .refl _

private theorem recalls_foldl {ι : Type} {act : Server → ι → Server}
    (each : ∀ server item, Recalls answers server.options (act server item).options) (items : List ι) :
    Recalls answers server.options (items.foldl act server).options := by
  induction items generalizing server with
  | nil => exact .refl _
  | cons item items ih => exact (each server item).trans ih

/-- Who leaves takes nothing but the own entry of the offline list. -/
private theorem recalls_leave (server : Server) (terminalType : Int16) (seated : Bool) (user : GameUser) (uid : Int32) :
    Recalls answers server.options
      ((((server.updateTerminalInfo .logoutHall terminalType).logoutTable seated user).logoutLevel user).deleteOfflineUser
        uid).options := by
  have same : (((server.updateTerminalInfo .logoutHall terminalType).logoutTable seated user).logoutLevel user).options =
      server.options := by
    rw [options_logoutLevel, options_logoutTable]
    rfl
  simp only [deleteOfflineUser, same]
  exact .of_same rfl rfl rfl

private theorem recalls_offlineCheck : Recalls answers server.options (server.processOfflineCheck answers).options := by
  refine recalls_foldl (fun server entry => ?_) _
  simp only [offlineStep]
  split
  · obtain ⟨middle, same, absent | ⟨user, present⟩⟩ := server.find_options entry.1
    · simp only [absent, deleteOfflineUser, same]
      exact .of_same rfl rfl rfl
    · simp only [present]
      rw [← same]
      exact recalls_leave ..
  · exact .refl _

private theorem recalls_flushCheck : Recalls answers server.options (server.processFlushCheck answers).options := by
  have visited (users : List GameUser) (uids : List Int32) (server : Server) : Recalls answers server.options
      (users.foldl (flushVisit (answers.time 0)) (server, uids)).1.options := by
    induction users generalizing server uids with
    | nil => exact .refl _
    | cons user users ih =>
      rw [List.foldl_cons, flushVisit]
      split
      · exact (recalls_leave ..).trans (ih _ _)
      · exact ih _ _
  have deleted (server : Server) (uid : Int32) : Recalls answers server.options (server.delete uid).options := .refl _
  exact (visited server.gshm.visit [] server).trans (recalls_foldl deleted _)

private theorem recalls_userLogin (uid svid userId : Int32) (terminalType : Int16) :
    Recalls answers server.options (server.processUserLogin answers uid svid userId terminalType).options := by
  rw [processUserLogin]
  split
  · exact .refl _
  · let entered := enterHall answers uid svid userId terminalType (server.store.lookup userId) (server.find userId).2
    have options : entered.2.options = server.options := by simp [entered]
    have cleared : Recalls answers server.options (entered.2.deleteOfflineUser userId).options := by
      simp only [deleteOfflineUser, options]
      exact .of_same rfl rfl rfl
    simp only [find_fst]
    exact cleared.trans (recalls_tableServer (entered.2.deleteOfflineUser userId) entered.1.tid)

private theorem recalls_getUserTable (uid svid : Int32) (level : Int16) (sid : Int32) :
    Recalls answers server.options (server.processGetUserTable answers uid svid level sid).options := by
  obtain ⟨middle, same, absent | ⟨user, present⟩⟩ := server.find_options uid
  · simp only [processGetUserTable, absent]
    rw [← same]
    exact .refl _
  · simp only [processGetUserTable, present]
    rw [← same]
    split
    · exact recalls_findServer middle _
    · exact .refl _

private theorem recalls_clientClose (uid : Int32) :
    Recalls answers server.options (server.processClientClose answers uid).options := by
  obtain ⟨middle, same, absent | ⟨user, present⟩⟩ := server.find_options uid
  · simp only [processClientClose, absent]
    rw [← same]
    exact .refl _
  · simp only [processClientClose, present]
    rw [← same]
    split
    · exact .of_same rfl rfl rfl
    · exact .of_same rfl rfl rfl

private theorem recalls_leaveRoom (uid : Int32) :
    Recalls answers server.options (server.processReportUserLeaveRoom answers uid).options := by
  obtain ⟨middle, same, absent | ⟨user, present⟩⟩ := server.find_options uid
  · simp only [processReportUserLeaveRoom, absent]
    rw [← same]
    exact .refl _
  · simp only [processReportUserLeaveRoom, present, setValue, options_logoutLevel, options_logoutTable, same]
    exact .refl _

private theorem recalls_enterRoom (uid tid : Int32) :
    Recalls answers server.options (server.processReportUserEnterRoom answers uid tid).options := by
  obtain ⟨middle, same, absent | ⟨user, present⟩⟩ := server.find_options uid
  · simp only [processReportUserEnterRoom, absent]
    rw [← same]
    exact .refl _
  · have asked := @recalls_findServer answers (middle.loginTable user) (tid >>> 16).toInt16
    rw [options_loginTable, same] at asked
    simp only [processReportUserEnterRoom, present]
    split
    · rename_i searched
      simpa [searched, setValue] using asked
    · rename_i searched
      split
      · simpa [searched, setValue, updateLevelInfo, options_logoutLevel] using asked
      · simpa [searched, setValue] using asked

private theorem recalls_standRoom (uid tid : Int32) :
    Recalls answers server.options (server.processReportUserStandRoom answers uid tid).options := by
  obtain ⟨middle, same, absent | ⟨user, present⟩⟩ := server.find_options uid
  · simp only [processReportUserStandRoom, absent]
    rw [← same]
    exact .refl _
  · have asked : Recalls answers middle.options ((middle.updateTerminalInfo .standTable user.terminalType).findServer
        answers (tid >>> 16).toInt16).2.options := recalls_findServer ..
    rw [same] at asked
    simp only [processReportUserStandRoom, present]
    split
    · rename_i searched
      rwa [searched] at asked
    · rename_i searched
      rwa [searched] at asked

private theorem recalls_standLeaveRoom (uid : Int32) :
    Recalls answers server.options (server.processReportStandLeaveRoom uid).options := by
  obtain ⟨middle, same, absent | ⟨user, present⟩⟩ := server.find_options uid
  · simp only [processReportStandLeaveRoom, absent]
    rw [← same]
    exact .refl _
  · simp only [processReportStandLeaveRoom, present]
    rw [← same]
    split <;> exact .refl _

private theorem recalls_getUserHallId (uid : Int32) :
    Recalls answers server.options (server.processGetUserHallId uid).options := by
  obtain ⟨middle, same, absent | ⟨user, present⟩⟩ := server.find_options uid
  · simp only [processGetUserHallId, absent]
    rw [← same]
    exact .refl _
  · simp only [processGetUserHallId, present]
    rw [← same]
    exact .refl _

private theorem recalls_getRand {call : Nat} {rolled : Int32 × Server} (ran : server.getRand answers call = some rolled) :
    rolled.2.options = server.options := by
  simp only [getRand] at ran
  split at ran
  · cases ran
  · cases ran
    rfl

private theorem recalls_levelNums {call : Nat} {levels : List Int16} {counted : List Packet.Write × Server}
    (ran : levelNums answers call levels server = some counted) : counted.2.options = server.options := by
  induction levels generalizing call server counted with
  | nil =>
    cases ran
    rfl
  | cons level levels ih =>
    obtain ⟨⟨rand, middle⟩, rolled, rest⟩ := Option.bind_eq_some_iff.mp ran
    obtain ⟨⟨others, last⟩, later, same⟩ := Option.bind_eq_some_iff.mp rest
    cases same
    exact (ih later).trans (recalls_getRand rolled)

private theorem recalls_synData (records : List (Int16 × Int32 × Int32)) :
    Recalls answers server.options (server.processSynData records).options := by
  refine recalls_foldl (fun server record => ?_) records
  exact .of_same rfl rfl rfl

private theorem recalls_logicCore (serverId : Int16) :
    (server.processLogicCore serverId).options = server.options.deleteLogicServer serverId := by
  have visited (users : List GameUser) (uids : List Int32) (server : Server) :
      (users.foldl (tid0Visit serverId) (server, uids)).1.options = server.options := by
    induction users generalizing server uids with
    | nil => rfl
    | cons user users ih =>
      rw [List.foldl_cons, tid0Visit]
      split
      · rw [ih, options_logoutLevel, options_logoutTable]
      · exact ih _ _
  simp only [processLogicCore, setServerUserTid0, options_foldl_change, visited]

private theorem recalls_hallCore (hid : Int32) :
    Recalls answers server.options (server.setUserOfflineHallCore answers hid).options := by
  have visited (users : List GameUser) (uids : List Int32) (call : Nat) (server : Server) :
      Recalls answers server.options (users.foldl (hallCoreVisit answers hid) (server, uids, call)).1.options := by
    induction users generalizing server uids call with
    | nil => exact .refl _
    | cons user users ih =>
      simp only [List.foldl_cons, hallCoreVisit]
      split
      · split
        · have noted : Recalls answers server.options (server.addOfflineUser user.uid (answers.time call)).options :=
            .of_same rfl rfl rfl
          exact noted.trans (ih ..)
        · exact ih _ _ _
      · exact ih _ _ _
  simp only [setUserOfflineHallCore, options_foldl_change]
  exact visited server.gshm.visit [] 0 server

/-- What a step does to the options. -/
theorem step_edits {event : Event} (ran : server.step event answers = some after) :
    Edits answers event server.options after.options := by
  cases event with
  | request request =>
    cases request with
    | getUserTable uid svid level sid =>
      obtain rfl := Option.some.inj ran
      exact .asks (fun _ => rfl) (recalls_getUserTable ..)
    | userLogin uid svid userId terminalType =>
      obtain rfl := Option.some.inj ran
      exact .asks (fun _ => rfl) (recalls_userLogin ..)
    | getRoomLevelNum uid svid levelCount levels =>
      obtain ⟨⟨writes, middle⟩, counted, same⟩ := Option.bind_eq_some_iff.mp ran
      obtain rfl := Option.some.inj same
      have options : middle.options = server.options := recalls_levelNums counted
      refine .asks (fun _ => rfl) ?_
      rw [← options]
      exact .refl _
    | clientClose uid =>
      obtain rfl := Option.some.inj ran
      exact .asks (fun _ => rfl) (recalls_clientClose ..)
    | userLeaveRoom uid =>
      obtain rfl := Option.some.inj ran
      exact .asks (fun _ => rfl) (recalls_leaveRoom ..)
    | userEnterRoom uid tid =>
      obtain rfl := Option.some.inj ran
      exact .asks (fun _ => rfl) (recalls_enterRoom ..)
    | userStandRoom uid tid =>
      obtain rfl := Option.some.inj ran
      exact .asks (fun _ => rfl) (recalls_standRoom ..)
    | standLeaveRoom uid =>
      obtain rfl := Option.some.inj ran
      exact .asks (fun _ => rfl) (recalls_standLeaveRoom ..)
    | logicCore core =>
      obtain rfl := Option.some.inj ran
      rw [recalls_logicCore]
      exact .core core
    | hallCore hid =>
      obtain rfl := Option.some.inj ran
      exact .asks (fun _ => rfl) (recalls_hallCore ..)
    | clearServerInfo =>
      obtain rfl := Option.some.inj ran
      exact .clear
    | tjSwitch tjSwitch tjInteval =>
      obtain rfl := Option.some.inj ran
      exact .tjSwitch tjSwitch tjInteval
    | getUserHallId uid =>
      obtain rfl := Option.some.inj ran
      exact .asks (fun _ => rfl) (recalls_getUserHallId ..)
    | setLevelCountRandom key =>
      obtain rfl := Option.some.inj ran
      refine .asks (fun _ => rfl) ?_
      simp only [processSetLevelCountRandom]
      split
      · exact .refl _
      · split <;> exact .of_same rfl rfl rfl
    | ignored =>
      obtain rfl := Option.some.inj ran
      exact .asks (fun _ => rfl) (.refl _)
  | synData records =>
    obtain rfl := Option.some.inj ran
    exact .asks (fun _ => rfl) (recalls_synData records)
  | offlineCheck =>
    obtain rfl := Option.some.inj ran
    exact .asks (fun _ => rfl) recalls_offlineCheck
  | flushCheck =>
    obtain rfl := Option.some.inj ran
    exact .asks (fun _ => rfl) recalls_flushCheck

/-- What a step does to the list of servers; the time of the start stays. -/
theorem step_remembers {event : Event} (ran : server.step event answers = some after) :
    after.options.startTime = server.options.startTime ∧ ∀ serverId, Remembers serverId (event, answers)
      (server.options.getServer serverId) (after.options.getServer serverId) := by
  have edits := step_edits ran
  generalize server.options = before at edits
  generalize after.options = final at edits
  cases edits with
  | core core =>
    refine ⟨rfl, fun serverId => ?_⟩
    simp only [Remembers, forgets, getServer_delete, decide_eq_true_eq]
    split
    · rfl
    · exact .inl rfl
  | clear =>
    refine ⟨rfl, fun serverId => ?_⟩
    simp [Remembers, forgets, Options.getServer, Options.clearServerList]
  | tjSwitch tjSwitch tjInteval =>
    refine ⟨rfl, fun serverId => ?_⟩
    rw [Remembers, if_neg (by simp [forgets])]
    exact .inl rfl
  | asks keeps recalls =>
    refine ⟨recalls.startTime, fun serverId => ?_⟩
    rw [Remembers, if_neg (by simp [keeps serverId])]
    exact recalls.servers serverId

/-- Only `SYS_SET_TJ_SWITCH` sets the interval of the reports. -/
theorem step_interval {event : Event} (ran : server.step event answers = some after) :
    (∃ tjSwitch, event = .request (.tjSwitch tjSwitch after.options.tjInteval)) ∨
      after.options.tjInteval = server.options.tjInteval := by
  have edits := step_edits ran
  generalize server.options = before at edits
  generalize after.options = final at edits
  cases edits with
  | core => exact .inr rfl
  | clear => exact .inr rfl
  | tjSwitch tjSwitch => exact .inl ⟨tjSwitch, rfl⟩
  | asks _ recalls => exact .inr recalls.interval

end Server

variable {serverId : Int16} {inputs : List (Event × Answers)} {logic : LogicServer} {old new : Option LogicServer}

private theorem remembered_while (path : Path (Remembers serverId) inputs old new)
    (keeps : ∀ input ∈ inputs, forgets serverId input.1 = false) (there : old = some logic) : new = some logic := by
  induction path with
  | done => exact there
  | @step input inputs view next final moved path ih =>
    refine ih (fun other later => keeps other (List.mem_cons_of_mem _ later)) ?_
    rw [Remembers, if_neg (by simp [keeps input (List.mem_cons_self ..)])] at moved
    rcases moved with same | ⟨none, _⟩
    · exact same.trans there
    · rw [there] at none
      cases none

namespace Server

variable {server after : Server}

/-- The list of servers in a run. -/
theorem remembers_run (ran : run (fun input : Event × Answers => step input.1 input.2) inputs server = some after)
    (serverId : Int16) :
    Path (Remembers serverId) inputs (server.options.getServer serverId) (after.options.getServer serverId) := by
  let seen (server : Server) : Option LogicServer := server.options.getServer serverId
  have each {server after : Server} {input : Event × Answers} (_ : True) (_ : True)
      (stepped : step input.1 input.2 server = some after) :
      Remembers serverId input (seen server) (seen after) := (step_remembers stepped).2 serverId
  exact .of_run seen ran (fun _ _ => trivial) each trivial fun _ _ _ _ _ _ _ _ => trivial

/-- Where a server gets into the list: it is not in it before, and the answer to the event is what it is after. -/
structure Entered (serverId : Int16) (logic : LogicServer) (input : Event × Answers) (before after : Server) : Prop where
  missing : before.options.getServer serverId = none
  stepped : step input.1 input.2 before = some after
  present : after.options.getServer serverId = some logic
  named : logic.serverId = serverId
  answered : getServerInfoFromMc input.2 serverId = some (logic.level, logic.ip, logic.port)

/-- What is remembered in the end was there all the time, or got in on the way. -/
private theorem entered_of_run (ran : run (fun input : Event × Answers => step input.1 input.2) inputs server = some after)
    (there : after.options.getServer serverId = some logic) :
    (server.options.getServer serverId = some logic ∧ ∀ input ∈ inputs, forgets serverId input.1 = false) ∨
      ∃ past input rest before middle, inputs = past ++ input :: rest ∧
        run (fun input : Event × Answers => step input.1 input.2) past server = some before ∧
        Entered serverId logic input before middle ∧
        run (fun input : Event × Answers => step input.1 input.2) rest middle = some after ∧
        ∀ other ∈ rest, forgets serverId other.1 = false := by
  induction inputs generalizing server with
  | nil =>
    obtain rfl := Option.some.inj ran
    exact .inl ⟨there, by simp⟩
  | cons input inputs ih =>
    obtain ⟨middle, stepped, further⟩ := Option.bind_eq_some_iff.mp ran
    rcases ih further with ⟨present, keeps⟩ | ⟨past, later, rest, before, next, split, passed, entered⟩
    · have moved := (step_remembers stepped).2 serverId
      have kept : forgets serverId input.1 = false := by
        by_contra forgotten
        rw [Remembers, if_pos (by simpa using forgotten), present] at moved
        cases moved
      rw [Remembers, if_neg (by simp [kept])] at moved
      rcases moved with same | ⟨missing, level, ip, port, answered, made⟩
      · refine .inl ⟨same.symm.trans present, fun other member => ?_⟩
        rcases List.mem_cons.mp member with rfl | inside
        · exact kept
        · exact keeps other inside
      · obtain rfl := Option.some.inj (present.symm.trans made)
        exact .inr ⟨[], input, inputs, server, middle, rfl, rfl, ⟨missing, stepped, present, rfl, answered⟩, further,
          keeps⟩
    · refine .inr ⟨input :: past, later, rest, before, next, by rw [split]; rfl, ?_, entered⟩
      exact Option.bind_eq_some_iff.mpr ⟨middle, stepped, passed⟩

/-- In a run of a process, a server in the list is what memcached said of it when it got into the list, and is in
the list ever since, so that memcached is not asked again; the list keeps it until the server fails or all are
forgotten. -/
theorem servers_as_answered (empty : server.options.serverList = ∅)
    (ran : run (fun input : Event × Answers => step input.1 input.2) inputs server = some after) (serverId : Int16)
    (logic : LogicServer) :
    (after.options.getServer serverId = some logic → ∃ past input rest before middle,
      inputs = past ++ input :: rest ∧
        run (fun input : Event × Answers => step input.1 input.2) past server = some before ∧
        Entered serverId logic input before middle ∧ (∀ other ∈ rest, forgets serverId other.1 = false) ∧
        ∀ between last later, rest = between ++ last →
          run (fun input : Event × Answers => step input.1 input.2) between middle = some later →
            later.options.getServer serverId = some logic) ∧
    ∀ past rest middle, inputs = past ++ rest →
      run (fun input : Event × Answers => step input.1 input.2) past server = some middle →
      middle.options.getServer serverId = some logic → (∀ input ∈ rest, forgets serverId input.1 = false) →
      after.options.getServer serverId = some logic := by
  constructor
  · intro there
    rcases entered_of_run ran there with ⟨before, _⟩ | ⟨past, input, rest, before, middle, split, passed, entered, _, keeps⟩
    · simp [Options.getServer, empty] at before
    · refine ⟨past, input, rest, before, middle, split, passed, entered, keeps, ?_⟩
      rintro between last later rfl stepped
      exact remembered_while (remembers_run stepped serverId)
        (fun other member => keeps other (List.mem_append_left _ member)) entered.present
  · intro past rest middle split passed there keeps
    rw [split, run_append, passed, Option.bind_some] at ran
    exact remembered_while (remembers_run ran serverId) keeps there

/-- What memcached says of server 1: level 3 at `a`, port 80. -/
def oneServer (time : Int32) : Answers := { quiet time with serverRecord := fun serverId =>
  if serverId = 1 then [51, 44, 97, 44, 56, 48] else [] }

/-- A user enters a room of server 1, hall 2 fails, and the user changes the table when memcached has lost the server. -/
def enteredRoom : List (Event × Answers) :=
  [(.request (.userLogin 7 1 7 3), quiet 1000), (.request (.userEnterRoom 7 65536), oneServer 1001),
    (.request (.hallCore 2), quiet 1002), (.request (.userEnterRoom 7 65537), quiet 1003)]

theorem servers_as_answered_entered : ∃ after logic,
    run (fun input : Event × Answers => step input.1 input.2) enteredRoom (initial 2 0) = some after ∧
      after.options.getServer 1 = some logic ∧ logic.level = 3 ∧ ∃ past input rest before middle,
        enteredRoom = past ++ input :: rest ∧
          run (fun input : Event × Answers => step input.1 input.2) past (initial 2 0) = some before ∧
          Entered 1 logic input before middle ∧ (∀ other ∈ rest, forgets 1 other.1 = false) ∧
          ∀ between last later, rest = between ++ last →
            run (fun input : Event × Answers => step input.1 input.2) between middle = some later →
              later.options.getServer 1 = some logic := by
  have facts : (run (fun input : Event × Answers => step input.1 input.2) enteredRoom (initial 2 0)).map (fun after =>
      (after.options.getServer 1).map (·.level)) = some (some 3) := by decide +kernel
  obtain ⟨after, ran, found⟩ := Option.map_eq_some_iff.mp facts
  obtain ⟨logic, there, level⟩ := Option.map_eq_some_iff.mp found
  exact ⟨after, logic, ran, there, level, (servers_as_answered rfl ran 1 logic).1 there⟩

end Server

end TeenpattiUserServer.UserServer
