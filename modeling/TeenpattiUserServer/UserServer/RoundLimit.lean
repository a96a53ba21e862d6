import TeenpattiUserServer.UserServer.RoomCounts

/-! The modulus of `GetRand`: which step sets it, and which step divides by it. -/

namespace TeenpattiUserServer.UserServer

namespace Server

variable {server after : Server} {answers : Answers}

private theorem roundLimit_findServer (serverId : Int16) :
    (server.findServer answers serverId).2.options.roundLimit = server.options.roundLimit := by
  simp only [findServer, Options.findServer]
  split
  · rfl
  · split <;> rfl

private theorem roundLimit_tableServer (tid : Int32) :
    (server.tableServer answers tid).2.options.roundLimit = server.options.roundLimit := by
  rw [tableServer]
  split
  · exact roundLimit_findServer _
  · rfl

/-- What each visit keeps, a sweep keeps. -/
private theorem foldl_limit {α β : Type} (view : α → Server) {visit : α → β → α}
    (kept : ∀ state item, (view (visit state item)).options.roundLimit = (view state).options.roundLimit)
    (items : List β) (state : α) :
    (view (items.foldl visit state)).options.roundLimit = (view state).options.roundLimit := by
  induction items generalizing state with
  | nil => rfl
  | cons item items ih => rw [List.foldl_cons, ih, kept]

private theorem roundLimit_processGetUserTable (uid svid : Int32) (level : Int16) (sid : Int32) :
    (server.processGetUserTable answers uid svid level sid).options.roundLimit = server.options.roundLimit := by
  obtain ⟨middle, same, absent | ⟨user, present⟩⟩ := server.find_options uid
  · simp only [processGetUserTable, absent, send, same]
  · simp only [processGetUserTable, present]
    split
    · simp only [send, setValue, roundLimit_findServer, same]
    · simp only [send, same]

private theorem roundLimit_processUserLogin (uid svid userId : Int32) (terminalType : Int16) :
    (server.processUserLogin answers uid svid userId terminalType).options.roundLimit = server.options.roundLimit := by
  by_cases nobody : userId ≤ 0
  · rw [processUserLogin, if_pos nobody]
  · let hall := enterHall answers uid svid userId terminalType (server.find userId).1 (server.find userId).2
    have entered : hall.2.options = server.options := options_enterHall ..
    have through : (server.processUserLogin answers uid svid userId terminalType).options =
        ((hall.2.deleteOfflineUser userId).tableServer answers hall.1.tid).2.options := by
      rw [processUserLogin, if_neg nobody]
      rfl
    rw [through, roundLimit_tableServer, deleteOfflineUser, entered]
    rfl

private theorem roundLimit_processClientClose (uid : Int32) :
    (server.processClientClose answers uid).options.roundLimit = server.options.roundLimit := by
  obtain ⟨middle, same, absent | ⟨user, present⟩⟩ := server.find_options uid
  · simp only [processClientClose, absent, same]
  · simp only [processClientClose, present]
    split
    · simp only [setValue, addOfflineUser, Options.addOfflineUser, same]
    · simp only [delete, updateTerminalInfo, deleteOfflineUser, Options.deleteOfflineUser, same]

private theorem roundLimit_processReportUserLeaveRoom (uid : Int32) :
    (server.processReportUserLeaveRoom answers uid).options.roundLimit = server.options.roundLimit := by
  obtain ⟨middle, same, absent | ⟨user, present⟩⟩ := server.find_options uid
  · simp only [processReportUserLeaveRoom, absent, same]
  · simp only [processReportUserLeaveRoom, present, setValue, options_logoutLevel, options_logoutTable, same]

private theorem roundLimit_processReportUserEnterRoom (uid tid : Int32) :
    (server.processReportUserEnterRoom answers uid tid).options.roundLimit = server.options.roundLimit := by
  obtain ⟨middle, same, absent | ⟨user, present⟩⟩ := server.find_options uid
  · simp only [processReportUserEnterRoom, absent, same]
  · have seated : ((middle.loginTable user).findServer answers (tid >>> 16).toInt16).2.options.roundLimit =
        server.options.roundLimit := by rw [roundLimit_findServer, options_loginTable, same]
    simp only [processReportUserEnterRoom, present]
    generalize (middle.loginTable user).findServer answers (tid >>> 16).toInt16 = found at seated
    obtain ⟨_ | logic, later⟩ := found
    · exact seated
    · dsimp only
      split
      · simp only [setValue, updateLevelInfo, options_logoutLevel]
        exact seated
      · exact seated

private theorem roundLimit_processReportUserStandRoom (uid tid : Int32) :
    (server.processReportUserStandRoom answers uid tid).options.roundLimit = server.options.roundLimit := by
  obtain ⟨middle, same, absent | ⟨user, present⟩⟩ := server.find_options uid
  · simp only [processReportUserStandRoom, absent, same]
  · have stood : ((middle.updateTerminalInfo .standTable user.terminalType).findServer answers
        (tid >>> 16).toInt16).2.options.roundLimit = server.options.roundLimit := by
      rw [roundLimit_findServer, ← same]
      rfl
    simp only [processReportUserStandRoom, present]
    generalize (middle.updateTerminalInfo .standTable user.terminalType).findServer answers (tid >>> 16).toInt16 =
      found at stood
    obtain ⟨_ | logic, later⟩ := found
    · exact stood
    · exact stood

private theorem roundLimit_processReportStandLeaveRoom (uid : Int32) :
    (server.processReportStandLeaveRoom uid).options.roundLimit = server.options.roundLimit := by
  obtain ⟨middle, same, absent | ⟨user, present⟩⟩ := server.find_options uid
  · simp only [processReportStandLeaveRoom, absent, same]
  · simp only [processReportStandLeaveRoom, present]
    split
    · exact congrArg Options.roundLimit same
    · exact congrArg Options.roundLimit same

private theorem roundLimit_processLogicCore (serverId : Int16) :
    (server.processLogicCore serverId).options.roundLimit = server.options.roundLimit := by
  simp only [processLogicCore, setServerUserTid0, options_foldl_change]
  refine foldl_limit Prod.fst (fun state user => ?_) _ _
  rw [tid0Visit]
  split
  · simp only [options_logoutLevel, options_logoutTable]
  · rfl

private theorem roundLimit_setUserOfflineHallCore (hid : Int32) :
    (server.setUserOfflineHallCore answers hid).options.roundLimit = server.options.roundLimit := by
  simp only [setUserOfflineHallCore, options_foldl_change]
  refine foldl_limit Prod.fst (fun state user => ?_) _ _
  rw [hallCoreVisit]
  split
  · split <;> rfl
  · rfl

private theorem roundLimit_processGetUserHallId (uid : Int32) :
    (server.processGetUserHallId uid).options.roundLimit = server.options.roundLimit := by
  obtain ⟨middle, same, absent | ⟨user, present⟩⟩ := server.find_options uid
  · simp only [processGetUserHallId, absent, send, same]
  · simp only [processGetUserHallId, present, send, same]

private theorem roundLimit_processSynData (records : List (Int16 × Int32 × Int32)) :
    (server.processSynData records).options.roundLimit = server.options.roundLimit := by
  refine foldl_limit (fun state => state) (fun state record => ?_) records server
  rfl

private theorem roundLimit_processOfflineCheck :
    (server.processOfflineCheck answers).options.roundLimit = server.options.roundLimit := by
  refine foldl_limit (fun state => state) (fun state entry => ?_) _ server
  simp only [offlineStep]
  split
  · obtain ⟨middle, same, absent | ⟨user, present⟩⟩ := state.find_options entry.1
    · simp only [absent, deleteOfflineUser, Options.deleteOfflineUser, same]
    · simp only [present, deleteOfflineUser, Options.deleteOfflineUser, delete, options_logoutLevel,
        options_logoutTable, updateTerminalInfo, same]
  · rfl

private theorem roundLimit_processFlushCheck :
    (server.processFlushCheck answers).options.roundLimit = server.options.roundLimit := by
  have deleted (uids : List Int32) (state : Server) : (uids.foldl delete state).options.roundLimit =
      state.options.roundLimit := by
    refine foldl_limit (fun state => state) (fun state uid => ?_) uids state
    rfl
  refine (deleted _ _).trans (foldl_limit Prod.fst (fun state user => ?_) _ _)
  rw [flushVisit]
  split
  · simp only [deleteOfflineUser, Options.deleteOfflineUser, options_logoutLevel, options_logoutTable,
      updateTerminalInfo]
  · rfl

end Server

namespace Event

/-- A `SYS_SET_LEVEL_COUNT_RANDOM` with its key. -/
def reloads : Event → Bool
  | .request (.setLevelCountRandom key) => key = sysCtrlLevelCountRandom
  | _ => false

/-- A `CMD_GET_ROOM_LEVER_NUM` for at least one level. -/
def asksCounts : Event → Bool
  | .request (.getRoomLevelNum _ _ _ levels) => !levels.isEmpty
  | _ => false

end Event

namespace Server

variable {server after : Server} {answers : Answers} {event : Event}

private theorem roundLimit_processSetLevelCountRandom (key : List UInt8) :
    (server.processSetLevelCountRandom answers key).options.roundLimit =
      ((if key = sysCtrlLevelCountRandom then answers.randomConfig else none).map Prod.fst).getD
        server.options.roundLimit := by
  by_cases own : key = sysCtrlLevelCountRandom
  · rw [processSetLevelCountRandom, if_neg (not_not.mpr own), if_pos own]
    cases answers.randomConfig <;> rfl
  · rw [processSetLevelCountRandom, if_pos own, if_neg own]
    rfl

/-- The counts are asked of `rand` one by one, and the first division by zero is the end. -/
private theorem processGetRoomLevelNum_cases (uid svid : Int32) (levelCount : Int16) (levels : List Int16) :
    (server.processGetRoomLevelNum answers uid svid levelCount levels = none ∧ levels ≠ [] ∧
      server.options.roundLimit = 0) ∨
    ∃ after, server.processGetRoomLevelNum answers uid svid levelCount levels = some after ∧
      (levels = [] ∨ server.options.roundLimit ≠ 0) ∧ after.options = server.options := by
  by_cases limit : server.options.roundLimit = 0
  · cases levels with
    | nil => exact .inr ⟨_, rfl, .inl rfl, rfl⟩
    | cons level levels =>
      refine .inl ⟨?_, List.cons_ne_nil level levels, limit⟩
      simp [processGetRoomLevelNum, levelNums, getRand, limit]
  · obtain ⟨middle, written, options, _⟩ := @levelNums_eq answers server limit 0 levels
    let writes := (totalFields (levelTotals answers server.options 0 levels)).map Packet.Field.write
    let reply := netPacket GameCmd.cmdGetRoomLevelNum (.short levelCount :: writes)
    refine .inr ⟨middle.sendClientPacket uid svid reply, ?_, .inr limit, options⟩
    simp only [processGetRoomLevelNum, written, Option.bind_eq_bind, Option.bind_some, Option.pure_def, reply, writes]

/-- The modulus is what the last `ReadRandomConfig` read. -/
theorem step_roundLimit (ran : server.step event answers = some after) : after.options.roundLimit =
    ((if event.reloads then answers.randomConfig else none).map Prod.fst).getD server.options.roundLimit := by
  cases event with
  | synData records =>
    obtain rfl := Option.some.inj ran
    exact roundLimit_processSynData records
  | offlineCheck =>
    obtain rfl := Option.some.inj ran
    exact roundLimit_processOfflineCheck
  | flushCheck =>
    obtain rfl := Option.some.inj ran
    exact roundLimit_processFlushCheck
  | request request =>
    cases request with
    | getRoomLevelNum uid svid levelCount levels =>
      rcases @processGetRoomLevelNum_cases server answers uid svid levelCount levels with
        ⟨faults, _⟩ | ⟨served, answered, _, options⟩
      · exact absurd (faults.symm.trans ran) (by simp)
      · obtain rfl := Option.some.inj (answered.symm.trans ran)
        exact congrArg Options.roundLimit options
    | setLevelCountRandom key =>
      obtain rfl := Option.some.inj ran
      simpa only [Event.reloads, decide_eq_true_eq] using roundLimit_processSetLevelCountRandom key
    | getUserTable uid svid level sid =>
      obtain rfl := Option.some.inj ran
      exact roundLimit_processGetUserTable uid svid level sid
    | userLogin uid svid userId terminalType =>
      obtain rfl := Option.some.inj ran
      exact roundLimit_processUserLogin uid svid userId terminalType
    | clientClose uid =>
      obtain rfl := Option.some.inj ran
      exact roundLimit_processClientClose uid
    | userLeaveRoom uid =>
      obtain rfl := Option.some.inj ran
      exact roundLimit_processReportUserLeaveRoom uid
    | userEnterRoom uid tid =>
      obtain rfl := Option.some.inj ran
      exact roundLimit_processReportUserEnterRoom uid tid
    | userStandRoom uid tid =>
      obtain rfl := Option.some.inj ran
      exact roundLimit_processReportUserStandRoom uid tid
    | standLeaveRoom uid =>
      obtain rfl := Option.some.inj ran
      exact roundLimit_processReportStandLeaveRoom uid
    | logicCore serverId =>
      obtain rfl := Option.some.inj ran
      exact roundLimit_processLogicCore serverId
    | hallCore svid =>
      obtain rfl := Option.some.inj ran
      exact roundLimit_setUserOfflineHallCore svid
    | getUserHallId uid =>
      obtain rfl := Option.some.inj ran
      exact roundLimit_processGetUserHallId uid
    | clearServerInfo | tjSwitch | ignored =>
      obtain rfl := Option.some.inj ran
      rfl

/-- A step faults just when it asks for a count while the modulus is zero. -/
theorem step_none_iff :
    server.step event answers = none ↔ event.asksCounts = true ∧ server.options.roundLimit = 0 := by
  cases event with
  | request request =>
    cases request with
    | getRoomLevelNum uid svid levelCount levels =>
      rcases @processGetRoomLevelNum_cases server answers uid svid levelCount levels with
        ⟨faults, asked, limit⟩ | ⟨served, answered, spared, _⟩
      · exact iff_of_true faults ⟨by simpa [Event.asksCounts] using asked, limit⟩
      · refine iff_of_false (by simp [step, serve, answered]) fun both => ?_
        rcases spared with rfl | limit
        · cases both.1
        · exact limit both.2
    | _ => exact iff_of_false (Option.some_ne_none _) fun both => by cases both.1
  | _ => exact iff_of_false (Option.some_ne_none _) fun both => by cases both.1

end Server

end TeenpattiUserServer.UserServer
