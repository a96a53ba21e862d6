import TeenpattiUserServer.UserServer.Changes

/-! The counts of users who look on: which updates move them. All that a step does
besides the two reports about standing leaves them alone. -/

namespace TeenpattiUserServer.UserServer

open Std Bookkeeping

/-- The worth of the entries of a map, together. -/
def totalOf (worth : DataInfo → Int) (map : TreeMap Int16 DataInfo) : Int :=
  (map.toList.map fun entry => worth entry.2).sum

private theorem sum_split (worth : Int16 × DataInfo → Int) {entries : List (Int16 × DataInfo)} {key : Int16}
    {info : DataInfo} (distinct : entries.Pairwise fun first second => first.1 ≠ second.1)
    (member : (key, info) ∈ entries) :
    (entries.map worth).sum = worth (key, info) + ((entries.filter fun entry => ¬ key == entry.1).map worth).sum := by
  induction entries with
  | nil => simp at member
  | cons entry entries ih =>
    obtain ⟨apart, distinct⟩ := List.pairwise_cons.mp distinct
    rcases List.mem_cons.mp member with rfl | inside
    · have others : (entries.filter fun entry => ¬ key == entry.1) = entries :=
        List.filter_eq_self.mpr fun other found => by simpa using apart other found
      rw [List.filter_cons_of_neg (by simp), others, List.map_cons, List.sum_cons]
    · have different : key ≠ entry.1 := fun same => apart _ inside same.symm
      rw [List.filter_cons_of_pos (by simpa using different), List.map_cons, List.map_cons, List.sum_cons,
        List.sum_cons, ih distinct inside]
      omega

private theorem totalOf_insert (worth : DataInfo → Int) (zero : worth {} = 0) (map : TreeMap Int16 DataInfo)
    (key : Int16) (info : DataInfo) :
    totalOf worth (map.insert key info) = totalOf worth map + (worth info - worth (map.getD key {})) := by
  have inserted : totalOf worth (map.insert key info) =
      worth info + ((map.toList.filter fun entry => ¬ key == entry.1).map fun entry => worth entry.2).sum := by
    rw [totalOf, (TreeMap.toList_insert_perm.map fun entry => worth entry.2).sum_eq, List.map_cons, List.sum_cons]
  rw [inserted, TreeMap.getD_eq_getD_getElem?]
  cases found : map[key]? with
  | none =>
    have whole : (map.toList.filter fun entry => ¬ key == entry.1) = map.toList := by
      refine List.filter_eq_self.mpr fun entry member => ?_
      have stored := TreeMap.mem_toList_iff_getElem?_eq_some.mp member
      have different : key ≠ entry.1 := fun same => by simp [same, stored] at found
      simpa using different
    rw [whole, Option.getD_none, zero, totalOf]
    omega
  | some known =>
    have distinct : map.toList.Pairwise fun first second => first.1 ≠ second.1 :=
      map.distinct_keys_toList.imp fun apart same => apart (by simp [same])
    have split := sum_split (fun entry => worth entry.2) distinct (TreeMap.mem_toList_iff_getElem?_eq_some.mpr found)
    rw [Option.getD_some, totalOf, split]
    dsimp only
    omega

namespace Stat

variable (stat : Stat) (terminalType level : Int16)

/-- The users who look on, over all terminal types. -/
def onLookOn : Int := totalOf (·.onLookOnCount) stat.terminalStatMap

/-- `m_LevelMgr[level].lookCount`, zero for a level without an entry. -/
def levelLook : Int := (stat.level level).lookCount

private theorem onLookOn_modifyTerminal (change : DataInfo → DataInfo) :
    (stat.modifyTerminal terminalType change).onLookOn = stat.onLookOn +
      ((change (stat.terminal terminalType)).onLookOnCount - (stat.terminal terminalType).onLookOnCount) :=
  totalOf_insert (·.onLookOnCount) rfl stat.terminalStatMap terminalType (change (stat.terminal terminalType))

private theorem onLookOn_kept {change : DataInfo → DataInfo}
    (kept : ∀ info, (change info).onLookOnCount = info.onLookOnCount) :
    (stat.modifyTerminal terminalType change).onLookOn = stat.onLookOn := by
  rw [onLookOn_modifyTerminal, kept]
  omega

private theorem levelLook_setLevel (info : LevelInfo) :
    (stat.setLevel level info).levelLook = Function.update stat.levelLook level info.lookCount := by
  funext other
  by_cases same : other = level <;> simp [levelLook, same]

private theorem levelLook_eq : stat.levelLook level = (stat.levelMgr[level]?.getD {}).lookCount := by
  rw [levelLook, Stat.level, TreeMap.getD_eq_getD_getElem?]

end Stat

/-- The update counts a user who comes to look on, or one who stops. -/
@[simp] def TerminalUpdate.stands : TerminalUpdate → Bool
  | standTable | standLeaveTable => true
  | _ => false

@[simp] def LevelUpdate.stands : LevelUpdate → Bool
  | standIn | standOut => true
  | _ => false

namespace Stat

variable (stat : Stat) (terminalType level : Int16)

private theorem onLookOn_found (previous : Int16) :
    ((stat.modifyTerminal previous id).modifyTerminal terminalType id).onLookOn = stat.onLookOn := by
  rw [onLookOn_kept, onLookOn_kept] <;> exact fun _ => rfl

private theorem onLookOn_moveOnline (previous : Int16) :
    (stat.moveOnline previous terminalType).onLookOn = stat.onLookOn := by
  rw [moveOnline, onLookOn_kept, onLookOn_kept]
  · intro info
    split <;> rfl
  · exact fun _ => rfl

private theorem onLookOn_moveOnPlay (previous : Int16) :
    (stat.moveOnPlay previous terminalType).onLookOn = stat.onLookOn := by
  rw [moveOnPlay]
  split
  · rw [onLookOn_kept, onLookOn_kept] <;> exact fun _ => rfl
  · rfl

theorem onLookOn_updateTerminalInfo {type : TerminalUpdate} (other : type.stands = false) :
    (stat.updateTerminalInfo type terminalType).onLookOn = stat.onLookOn := by
  cases type with
  | loginHall preStat =>
    cases preStat with
    | none =>
      rw [updateTerminalInfo, userLoginHall, onLookOn_kept]
      exact fun _ => rfl
    | some pre =>
      simp only [updateTerminalInfo, userLoginHall]
      split_ifs <;> simp only [onLookOn_moveOnline, onLookOn_moveOnPlay, onLookOn_found]
  | loginTable =>
    rw [updateTerminalInfo, userLoginTable, onLookOn_kept]
    exact fun _ => rfl
  | logoutTable =>
    rw [updateTerminalInfo, userLogoutTable, onLookOn_kept]
    intro info
    split <;> rfl
  | logoutHall =>
    rw [updateTerminalInfo, userLogoutHall, onLookOn_kept]
    intro info
    split <;> rfl
  | standTable | standLeaveTable => simp at other

theorem levelLook_updateTerminalInfo (type : TerminalUpdate) :
    (stat.updateTerminalInfo type terminalType).levelLook = stat.levelLook := by
  cases type with
  | loginHall preStat =>
    cases preStat with
    | none => rfl
    | some pre =>
      simp only [updateTerminalInfo, userLoginHall, moveOnPlay]
      split_ifs <;> rfl
  | _ => rfl

theorem onLookOn_updateLevelInfo (type : LevelUpdate) : (stat.updateLevelInfo type level).onLookOn = stat.onLookOn := by
  unfold updateLevelInfo
  split <;> (try split) <;> rfl

theorem levelLook_updateLevelInfo {type : LevelUpdate} (other : type.stands = false) :
    (stat.updateLevelInfo type level).levelLook = stat.levelLook := by
  have value := stat.levelLook_eq level
  cases found : stat.levelMgr[level]? with
  | none =>
    rw [found, Option.getD_none] at value
    cases type <;> simp [updateLevelInfo, found, levelLook_setLevel]
    exact value.symm
  | some info =>
    rw [found, Option.getD_some] at value
    cases type with
    | login => simp [updateLevelInfo, found, levelLook_setLevel, ← value]
    | logout =>
      by_cases positive : 0 < info.playCount <;> simp [updateLevelInfo, found, levelLook_setLevel, ← value, positive]
    | standIn | standOut => simp at other

theorem onLookOn_standTable : (stat.updateTerminalInfo .standTable terminalType).onLookOn = stat.onLookOn + 1 := by
  rw [updateTerminalInfo, userStandTable, onLookOn_modifyTerminal]
  dsimp only
  omega

theorem onLookOn_standLeaveTable : (stat.updateTerminalInfo .standLeaveTable terminalType).onLookOn =
    stat.onLookOn - if 0 < (stat.terminal terminalType).onLookOnCount then 1 else 0 := by
  rw [updateTerminalInfo, userStandLeaveTable, onLookOn_modifyTerminal]
  split
  · dsimp only
    omega
  · omega

/-- A user is counted at a level that has an entry only. -/
theorem levelLook_standIn (other : Int16) : (stat.updateLevelInfo .standIn level).levelLook other =
    stat.levelLook other + if level ∈ stat.levelMgr ∧ level = other then 1 else 0 := by
  have value := stat.levelLook_eq level
  cases found : stat.levelMgr[level]? with
  | none =>
    have absent : level ∉ stat.levelMgr := by simp [← TreeMap.isSome_getElem?_iff_mem, found]
    simp [updateLevelInfo, absent]
  | some info =>
    have present : level ∈ stat.levelMgr := by simp [← TreeMap.isSome_getElem?_iff_mem, found]
    rw [found, Option.getD_some] at value
    have raised : (stat.updateLevelInfo .standIn level).levelLook = raise stat.levelLook level := by
      simp [updateLevelInfo, found, levelLook_setLevel, ← value, raise]
    simp [raised, raise_apply, present]

theorem levelLook_standOut : (stat.updateLevelInfo .standOut level).levelLook = lower stat.levelLook level := by
  have value := stat.levelLook_eq level
  cases found : stat.levelMgr[level]? with
  | none =>
    rw [found] at value
    have zero : ¬ 0 < stat.levelLook level := by simp [value]
    simp [updateLevelInfo, found, lower, zero]
  | some info =>
    rw [found, Option.getD_some] at value
    by_cases positive : 0 < info.lookCount <;> simp [updateLevelInfo, found, levelLook_setLevel, lower, value, positive]

end Stat

namespace Server

/-- What is counted: all who look on, and those at each level. -/
def looks (server : Server) : Option Int16 → Int
  | none => server.stat.onLookOn
  | some level => server.stat.levelLook level

theorem looks_congr {server after : Server} (terminals : after.stat.onLookOn = server.stat.onLookOn)
    (levels : after.stat.levelLook = server.stat.levelLook) : after.looks = server.looks := by
  funext place
  cases place with
  | none => exact terminals
  | some level => exact congrFun levels level

variable (server : Server) (answers : Answers) (uid : Int32) (user : GameUser) (terminalType level : Int16)

theorem looks_updateTerminalInfo {type : TerminalUpdate} (other : type.stands = false) :
    (server.updateTerminalInfo type terminalType).looks = server.looks :=
  looks_congr (server.stat.onLookOn_updateTerminalInfo terminalType other)
    (server.stat.levelLook_updateTerminalInfo terminalType type)

theorem looks_updateLevelInfo {type : LevelUpdate} (other : type.stands = false) :
    (server.updateLevelInfo type level).looks = server.looks :=
  looks_congr (server.stat.onLookOn_updateLevelInfo level type) (server.stat.levelLook_updateLevelInfo level other)

@[simp] theorem looks_logoutTable (seated : Bool) : (server.logoutTable seated user).looks = server.looks := by
  rw [logoutTable]
  split
  · exact looks_updateTerminalInfo server _ rfl
  · rfl

@[simp] theorem looks_loginTable : (server.loginTable user).looks = server.looks := by
  rw [loginTable]
  split
  · exact looks_updateTerminalInfo server _ rfl
  · rfl

@[simp] theorem looks_logoutLevel : (server.logoutLevel user).looks = server.looks := by
  rw [logoutLevel]
  split
  · exact looks_updateLevelInfo server _ rfl
  · rfl

@[simp] theorem looks_send (packet : Packet.PacketBase) : (server.send packet).looks = server.looks := rfl

@[simp] theorem looks_sendClientPacket (svid : Int32) (packet : Packet.PacketBase) :
    (server.sendClientPacket uid svid packet).looks = server.looks := rfl

@[simp] theorem looks_setValue : (server.setValue user).looks = server.looks := rfl

@[simp] theorem looks_delete : (server.delete uid).looks = server.looks := rfl

@[simp] theorem looks_addOfflineUser (time : Int32) : (server.addOfflineUser uid time).looks = server.looks := rfl

@[simp] theorem looks_deleteOfflineUser : (server.deleteOfflineUser uid).looks = server.looks := rfl

@[simp] theorem looks_logoutHall : (server.updateTerminalInfo .logoutHall terminalType).looks = server.looks :=
  looks_updateTerminalInfo server _ rfl

@[simp] theorem looks_login : (server.updateLevelInfo .login level).looks = server.looks :=
  looks_updateLevelInfo server _ rfl

@[simp] theorem looks_tableServer (tid : Int32) : (server.tableServer answers tid).2.looks = server.looks := by
  rw [tableServer]
  split <;> rfl

@[simp] theorem looks_enterHall (svid userId : Int32) (found : Option GameUser) :
    (enterHall answers uid svid userId terminalType found server).2.looks = server.looks := by
  cases found with
  | none => exact looks_updateTerminalInfo server _ rfl
  | some user =>
    simp only [enterHall]
    rw [looks_updateTerminalInfo _ _ rfl]
    split <;> rfl

variable {server} {answers} {uid}

theorem looks_find {found : Option GameUser} {middle : Server} (ran : server.find uid = (found, middle)) :
    middle.looks = server.looks := by
  obtain rfl : (server.find uid).2 = middle := by rw [ran]
  rfl

theorem looks_findServer {serverId : Int16} {found : Option LogicServer} {middle : Server}
    (ran : server.findServer answers serverId = (found, middle)) : middle.looks = server.looks := by
  obtain rfl : (server.findServer answers serverId).2 = middle := by rw [ran]
  rfl

private theorem looks_foldl {ι : Type} {f : Server → ι → Server}
    (kept : ∀ server item, (f server item).looks = server.looks) (items : List ι) :
    (items.foldl f server).looks = server.looks := by
  induction items generalizing server with
  | nil => rfl
  | cons item items ih => rw [List.foldl_cons, ih, kept]

private theorem looks_foldl_fst {ι τ : Type} {f : Server × τ → ι → Server × τ}
    (kept : ∀ state item, (f state item).1.looks = state.1.looks) (items : List ι) (state : Server × τ) :
    (items.foldl f state).1.looks = state.1.looks := by
  induction items generalizing state with
  | nil => rfl
  | cons item items ih => rw [List.foldl_cons, ih, kept]

private theorem looks_change (alter : GameUser → GameUser) (server : Server) (uid : Int32) :
    (change alter server uid).looks = server.looks := by
  rcases ran : server.find uid with ⟨found, middle⟩
  have kept := looks_find ran
  cases found <;> simpa [change, ran] using kept

private theorem looks_getUserTable (svid : Int32) (level : Int16) (sid : Int32) :
    (server.processGetUserTable answers uid svid level sid).looks = server.looks := by
  rcases ran : server.find uid with ⟨found, middle⟩
  have kept := looks_find ran
  cases found with
  | none => simpa [processGetUserTable, ran] using kept
  | some user =>
    rcases searched : middle.findServer answers (user.tid >>> 16).toInt16 with ⟨logic, later⟩
    have further := (looks_findServer searched).trans kept
    by_cases seated : 0 < user.tid
    · simpa [processGetUserTable, ran, seated, searched] using further
    · simpa [processGetUserTable, ran, seated] using kept

private theorem looks_userLogin (svid userId : Int32) (terminalType : Int16) :
    (server.processUserLogin answers uid svid userId terminalType).looks = server.looks := by
  rw [processUserLogin]
  split
  · rfl
  · simp only [looks_sendClientPacket, looks_setValue, looks_tableServer, looks_deleteOfflineUser, looks_enterHall]
    exact looks_find (Prod.eta _).symm

private theorem looks_getRoomLevelNum {svid : Int32} {levelCount : Int16} {levels : List Int16} {after : Server}
    (ran : server.processGetRoomLevelNum answers uid svid levelCount levels = some after) :
    after.looks = server.looks := by
  have counted (call : Nat) (levels : List Int16) (server middle : Server) (writes : List Packet.Write)
      (ran : levelNums answers call levels server = some (writes, middle)) : middle.looks = server.looks := by
    induction levels generalizing call server middle writes with
    | nil =>
      obtain ⟨rfl, rfl⟩ := by simpa [levelNums] using ran
      rfl
    | cons level levels ih =>
      simp only [levelNums, Option.bind_eq_bind, Option.bind_eq_some_iff, Prod.exists] at ran
      obtain ⟨count, next, drawn, writes, last, rest, same⟩ := ran
      have drawnStat : next.looks = server.looks := by
        rw [getRand] at drawn
        split at drawn
        · cases drawn
        · obtain ⟨-, rfl⟩ := by simpa using drawn
          rfl
      obtain ⟨-, rfl⟩ := by simpa using same
      exact (ih (call + 1) next last writes rest).trans drawnStat
  simp only [processGetRoomLevelNum, Option.bind_eq_bind, Option.bind_eq_some_iff, Prod.exists] at ran
  obtain ⟨writes, middle, rest, same⟩ := ran
  obtain rfl := Option.some.inj same
  exact counted 0 levels server middle writes rest

private theorem looks_clientClose : (server.processClientClose answers uid).looks = server.looks := by
  rcases ran : server.find uid with ⟨found, middle⟩
  have kept := looks_find ran
  cases found with
  | none => simpa [processClientClose, ran] using kept
  | some user => by_cases seated : 0 < user.tid <;> simpa [processClientClose, ran, seated] using kept

private theorem looks_userLeaveRoom : (server.processReportUserLeaveRoom answers uid).looks = server.looks := by
  rcases ran : server.find uid with ⟨found, middle⟩
  have kept := looks_find ran
  cases found <;> simpa [processReportUserLeaveRoom, ran] using kept

private theorem looks_userEnterRoom (tid : Int32) :
    (server.processReportUserEnterRoom answers uid tid).looks = server.looks := by
  rcases ran : server.find uid with ⟨found, middle⟩
  have kept := looks_find ran
  cases found with
  | none => simpa [processReportUserEnterRoom, ran] using kept
  | some user =>
    rcases searched : (middle.loginTable user).findServer answers (tid >>> 16).toInt16 with ⟨logic, later⟩
    have further : later.looks = server.looks := (looks_findServer searched).trans ((looks_loginTable ..).trans kept)
    cases logic with
    | none => simpa [processReportUserEnterRoom, ran, searched] using further
    | some logic =>
      by_cases moved : logic.level = user.serverLevel <;>
        simpa [processReportUserEnterRoom, ran, searched, moved] using further

private theorem looks_logicCore (serverId : Int16) : (server.processLogicCore serverId).looks = server.looks := by
  simp only [processLogicCore, setServerUserTid0]
  rw [looks_foldl (looks_change _), looks_foldl_fst]
  · rfl
  · intro state user
    rw [tid0Visit]
    split <;> simp

private theorem looks_hallCore (hid : Int32) : (server.setUserOfflineHallCore answers hid).looks = server.looks := by
  simp only [setUserOfflineHallCore]
  rw [looks_foldl (looks_change _), looks_foldl_fst]
  intro state user
  simp only [hallCoreVisit]
  split
  · split <;> simp
  · rfl

private theorem looks_offlineCheck : (server.processOfflineCheck answers).looks = server.looks := by
  refine looks_foldl (fun server entry => ?_) _
  rcases ran : server.find entry.1 with ⟨found, middle⟩
  have kept := looks_find ran
  rw [offlineStep]
  split
  · cases found <;> simpa [ran] using kept
  · rfl

private theorem looks_flushCheck : (server.processFlushCheck answers).looks = server.looks := by
  simp only [processFlushCheck]
  rw [looks_foldl fun server uid => looks_delete server uid, looks_foldl_fst]
  intro state user
  rw [flushVisit]
  split <;> simp

private theorem looks_getUserHallId : (server.processGetUserHallId uid).looks = server.looks := by
  rcases ran : server.find uid with ⟨found, middle⟩
  have kept := looks_find ran
  cases found <;> simpa [processGetUserHallId, ran] using kept

private theorem looks_setLevelCountRandom (key : List UInt8) :
    (server.processSetLevelCountRandom answers key).looks = server.looks := by
  simp only [processSetLevelCountRandom]
  split
  · rfl
  · split <;> rfl

end Server

/-- Who comes to look on or stops, and where the user stands then. -/
def Event.onlooking : Event → Option (Int32 × Option Int32)
  | .request (.userStandRoom uid tid) => some (uid, some tid)
  | .request (.standLeaveRoom uid) => some (uid, none)
  | _ => none

namespace Server

/-- A step without such a report leaves the counts alone. -/
theorem step_looks {server after : Server} {event : Event} {answers : Answers} (other : event.onlooking = none)
    (ran : server.step event answers = some after) : after.looks = server.looks := by
  cases event with
  | request request =>
    cases request with
    | getRoomLevelNum => exact looks_getRoomLevelNum ran
    | userStandRoom | standLeaveRoom => simp [Event.onlooking] at other
    | getUserTable =>
      obtain rfl := Option.some.inj ran
      exact looks_getUserTable ..
    | userLogin =>
      obtain rfl := Option.some.inj ran
      exact looks_userLogin ..
    | clientClose =>
      obtain rfl := Option.some.inj ran
      exact looks_clientClose
    | userLeaveRoom =>
      obtain rfl := Option.some.inj ran
      exact looks_userLeaveRoom
    | userEnterRoom =>
      obtain rfl := Option.some.inj ran
      exact looks_userEnterRoom ..
    | logicCore =>
      obtain rfl := Option.some.inj ran
      exact looks_logicCore ..
    | hallCore =>
      obtain rfl := Option.some.inj ran
      exact looks_hallCore ..
    | setLevelCountRandom =>
      obtain rfl := Option.some.inj ran
      exact looks_setLevelCountRandom ..
    | getUserHallId uid =>
      obtain rfl := Option.some.inj ran
      exact looks_getUserHallId
    | clearServerInfo | tjSwitch | ignored =>
      obtain rfl := Option.some.inj ran
      rfl
  | synData records =>
    obtain rfl := Option.some.inj ran
    rw [processSynData, looks_foldl]
    exact fun _ _ => rfl
  | offlineCheck =>
    obtain rfl := Option.some.inj ran
    exact looks_offlineCheck
  | flushCheck =>
    obtain rfl := Option.some.inj ran
    exact looks_flushCheck

end Server

end TeenpattiUserServer.UserServer
