import TeenpattiUserServer.Bookkeeping.Counters

/-! `CStat`: how many users are online, play and look on, by terminal type, and
how many play and look on, by level. -/

namespace TeenpattiUserServer.UserServer

open Std Bookkeeping

structure DataInfo where
  onlineCount : Int := 0
  onPlayCount : Int := 0
  onLookOnCount : Int := 0

structure LevelInfo where
  playCount : Int := 0
  lookCount : Int := 0

structure UserStat where
  terminalType : Int16
  tid : Int32

/-- The `type` argument of `UpdateTerminalInfo`; its private data is the login's. -/
inductive TerminalUpdate where
  | loginTable
  | logoutTable
  | loginHall (preStat : Option UserStat)
  | logoutHall
  | standTable
  | standLeaveTable

/-- The `type` argument of `UpdateLevelInfo`. -/
inductive LevelUpdate where
  | login
  | logout
  | standIn
  | standOut

structure Stat where
  terminalStatMap : TreeMap Int16 DataInfo
  levelMgr : TreeMap Int16 LevelInfo

namespace Stat

def empty : Stat := ⟨∅, ∅⟩

def terminal (stat : Stat) (terminalType : Int16) : DataInfo := stat.terminalStatMap.getD terminalType {}

def level (stat : Stat) (level : Int16) : LevelInfo := stat.levelMgr.getD level {}

/-- Work on `m_terminalStatMap[terminalType]`, an entry that is made when it is missing. -/
def modifyTerminal (stat : Stat) (terminalType : Int16) (change : DataInfo → DataInfo) : Stat :=
  { stat with terminalStatMap := stat.terminalStatMap.insert terminalType (change (stat.terminal terminalType)) }

def setLevel (stat : Stat) (level : Int16) (info : LevelInfo) : Stat :=
  { stat with levelMgr := stat.levelMgr.insert level info }

/-- A user at a table goes on playing under the new terminal type. -/
def moveOnPlay (stat : Stat) (previous terminalType : Int16) : Stat :=
  if 0 < (stat.terminal previous).onPlayCount then
    (stat.modifyTerminal previous fun info => { info with
      onPlayCount := info.onPlayCount - 1 }).modifyTerminal terminalType fun info => { info with
      onPlayCount := info.onPlayCount + 1 }
  else stat

def moveOnline (stat : Stat) (previous terminalType : Int16) : Stat :=
  (stat.modifyTerminal previous fun info =>
    if 0 < info.onlineCount then { info with onlineCount := info.onlineCount - 1 } else info).modifyTerminal
    terminalType fun info => { info with onlineCount := info.onlineCount + 1 }

def userLoginHall (stat : Stat) (terminalType : Int16) (preStat : Option UserStat) : Stat :=
  match preStat with
  | none => stat.modifyTerminal terminalType fun info => { info with onlineCount := info.onlineCount + 1 }
  | some pre =>
    let found := (stat.modifyTerminal pre.terminalType id).modifyTerminal terminalType id
    if pre.terminalType ≠ terminalType then
      let played := if pre.tid ≠ 0 then found.moveOnPlay pre.terminalType terminalType else found
      played.moveOnline pre.terminalType terminalType
    else found

def userLogoutHall (stat : Stat) (terminalType : Int16) : Stat :=
  stat.modifyTerminal terminalType fun info =>
    if 0 < info.onlineCount then { info with onlineCount := info.onlineCount - 1 } else info

def userLogoutTable (stat : Stat) (terminalType : Int16) : Stat :=
  stat.modifyTerminal terminalType fun info =>
    if 0 < info.onPlayCount then { info with onPlayCount := info.onPlayCount - 1 } else info

def userStandTable (stat : Stat) (terminalType : Int16) : Stat :=
  stat.modifyTerminal terminalType fun info => { info with onLookOnCount := info.onLookOnCount + 1 }

def userStandLeaveTable (stat : Stat) (terminalType : Int16) : Stat :=
  stat.modifyTerminal terminalType fun info =>
    if 0 < info.onLookOnCount then { info with onLookOnCount := info.onLookOnCount - 1 } else info

def userLoginTable (stat : Stat) (terminalType : Int16) : Stat :=
  stat.modifyTerminal terminalType fun info => { info with onPlayCount := info.onPlayCount + 1 }

def updateTerminalInfo (stat : Stat) (type : TerminalUpdate) (terminalType : Int16) : Stat :=
  match type with
  | .loginHall preStat => stat.userLoginHall terminalType preStat
  | .logoutHall => stat.userLogoutHall terminalType
  | .loginTable => stat.userLoginTable terminalType
  | .logoutTable => stat.userLogoutTable terminalType
  | .standTable => stat.userStandTable terminalType
  | .standLeaveTable => stat.userStandLeaveTable terminalType

def updateLevelInfo (stat : Stat) (type : LevelUpdate) (level : Int16) : Stat :=
  match type, stat.levelMgr[level]? with
  | .login, some info => stat.setLevel level { info with playCount := info.playCount + 1 }
  | .login, none => stat.setLevel level ⟨1, 0⟩
  | .logout, some info =>
    if 0 < info.playCount then stat.setLevel level { info with playCount := info.playCount - 1 } else stat
  | .standIn, some info => stat.setLevel level { info with lookCount := info.lookCount + 1 }
  | .standOut, some info =>
    if 0 < info.lookCount then stat.setLevel level { info with lookCount := info.lookCount - 1 } else stat
  | _, none => stat

/-! What the updates do to the counters. -/

def online (stat : Stat) (terminalType : Int16) : Int := (stat.terminal terminalType).onlineCount

def onPlay (stat : Stat) (terminalType : Int16) : Int := (stat.terminal terminalType).onPlayCount

/-- `m_LevelMgr[level].playCount`, zero for a level without an entry. -/
def levelPlay (stat : Stat) (level : Int16) : Int := (stat.level level).playCount

end Stat

namespace Stat

variable (stat : Stat) (terminalType level : Int16)

@[simp] theorem terminal_modifyTerminal (change : DataInfo → DataInfo) :
    (stat.modifyTerminal terminalType change).terminal =
      Function.update stat.terminal terminalType (change (stat.terminal terminalType)) := by
  funext other
  by_cases same : other = terminalType
  · simp [terminal, modifyTerminal, same]
  · have different : terminalType ≠ other := fun equal => same equal.symm
    simp [terminal, modifyTerminal, TreeMap.getD_insert, same, different]

@[simp] theorem level_setLevel (info : LevelInfo) :
    (stat.setLevel level info).level = Function.update stat.level level info := by
  funext other
  by_cases same : other = level
  · simp [Stat.level, setLevel, same]
  · have different : level ≠ other := fun equal => same equal.symm
    simp [Stat.level, setLevel, TreeMap.getD_insert, same, different]

@[simp] theorem levelPlay_modifyTerminal (change : DataInfo → DataInfo) :
    (stat.modifyTerminal terminalType change).levelPlay = stat.levelPlay := rfl

@[simp] theorem online_setLevel (info : LevelInfo) : (stat.setLevel level info).online = stat.online := rfl

@[simp] theorem onPlay_setLevel (info : LevelInfo) : (stat.setLevel level info).onPlay = stat.onPlay := rfl

private theorem online_modifyTerminal (change : DataInfo → DataInfo) :
    (stat.modifyTerminal terminalType change).online =
      Function.update stat.online terminalType (change (stat.terminal terminalType)).onlineCount := by
  funext other
  by_cases same : other = terminalType <;> simp [online, same]

private theorem onPlay_modifyTerminal (change : DataInfo → DataInfo) :
    (stat.modifyTerminal terminalType change).onPlay =
      Function.update stat.onPlay terminalType (change (stat.terminal terminalType)).onPlayCount := by
  funext other
  by_cases same : other = terminalType <;> simp [onPlay, same]

@[simp] theorem levelPlay_updateTerminalInfo (type : TerminalUpdate) :
    (stat.updateTerminalInfo type terminalType).levelPlay = stat.levelPlay := by
  cases type with
  | loginHall preStat =>
    cases preStat with
    | none => rfl
    | some pre =>
      simp only [updateTerminalInfo, userLoginHall, moveOnPlay]
      split_ifs <;> rfl
  | _ => rfl

@[simp] theorem online_updateLevelInfo (type : LevelUpdate) :
    (stat.updateLevelInfo type level).online = stat.online := by
  unfold updateLevelInfo
  split <;> (try split) <;> rfl

@[simp] theorem onPlay_updateLevelInfo (type : LevelUpdate) :
    (stat.updateLevelInfo type level).onPlay = stat.onPlay := by
  unfold updateLevelInfo
  split <;> (try split) <;> rfl

@[simp] theorem online_loginHall_new :
    (stat.updateTerminalInfo (.loginHall none) terminalType).online = raise stat.online terminalType :=
  online_modifyTerminal stat terminalType _

@[simp] theorem onPlay_loginHall_new :
    (stat.updateTerminalInfo (.loginHall none) terminalType).onPlay = stat.onPlay :=
  (onPlay_modifyTerminal stat terminalType _).trans (Function.update_eq_self ..)

@[simp] theorem online_logoutHall :
    (stat.updateTerminalInfo .logoutHall terminalType).online = lower stat.online terminalType := by
  refine (online_modifyTerminal stat terminalType _).trans ?_
  rw [lower, online]
  congr 1
  split <;> rfl

@[simp] theorem onPlay_logoutHall :
    (stat.updateTerminalInfo .logoutHall terminalType).onPlay = stat.onPlay := by
  refine (onPlay_modifyTerminal stat terminalType _).trans (Eq.trans ?_ (Function.update_eq_self terminalType _))
  congr 1
  split <;> rfl

@[simp] theorem online_loginTable :
    (stat.updateTerminalInfo .loginTable terminalType).online = stat.online :=
  (online_modifyTerminal stat terminalType _).trans (Function.update_eq_self ..)

@[simp] theorem onPlay_loginTable :
    (stat.updateTerminalInfo .loginTable terminalType).onPlay = raise stat.onPlay terminalType :=
  onPlay_modifyTerminal stat terminalType _

@[simp] theorem online_logoutTable :
    (stat.updateTerminalInfo .logoutTable terminalType).online = stat.online := by
  refine (online_modifyTerminal stat terminalType _).trans (Eq.trans ?_ (Function.update_eq_self terminalType _))
  congr 1
  split <;> rfl

@[simp] theorem onPlay_logoutTable :
    (stat.updateTerminalInfo .logoutTable terminalType).onPlay = lower stat.onPlay terminalType := by
  refine (onPlay_modifyTerminal stat terminalType _).trans ?_
  rw [lower, onPlay]
  congr 1
  split <;> rfl

private theorem levelPlay_setLevel (info : LevelInfo) :
    (stat.setLevel level info).levelPlay = Function.update stat.levelPlay level info.playCount := by
  funext other
  by_cases same : other = level <;> simp [levelPlay, same]

private theorem levelPlay_eq : stat.levelPlay level = (stat.levelMgr[level]?.getD {}).playCount := by
  rw [levelPlay, Stat.level, TreeMap.getD_eq_getD_getElem?]

@[simp] theorem levelPlay_login : (stat.updateLevelInfo .login level).levelPlay = raise stat.levelPlay level := by
  have value := stat.levelPlay_eq level
  cases found : stat.levelMgr[level]? <;> rw [found] at value <;>
    simp [updateLevelInfo, found, levelPlay_setLevel, raise, value]

@[simp] theorem levelPlay_logout : (stat.updateLevelInfo .logout level).levelPlay = lower stat.levelPlay level := by
  have value := stat.levelPlay_eq level
  cases found : stat.levelMgr[level]? with
  | none =>
    rw [found] at value
    have zero : ¬ 0 < stat.levelPlay level := by simp [value]
    simp [updateLevelInfo, found, lower, zero]
  | some info =>
    rw [found, Option.getD_some] at value
    by_cases positive : 0 < info.playCount <;> simp [updateLevelInfo, found, levelPlay_setLevel, lower, value, positive]

@[simp] theorem levelPlay_standIn : (stat.updateLevelInfo .standIn level).levelPlay = stat.levelPlay := by
  have value := stat.levelPlay_eq level
  cases found : stat.levelMgr[level]? with
  | none => simp [updateLevelInfo, found]
  | some info =>
    rw [found, Option.getD_some] at value
    simp [updateLevelInfo, found, levelPlay_setLevel, ← value]

@[simp] theorem levelPlay_standOut : (stat.updateLevelInfo .standOut level).levelPlay = stat.levelPlay := by
  have value := stat.levelPlay_eq level
  cases found : stat.levelMgr[level]? with
  | none => simp [updateLevelInfo, found]
  | some info =>
    rw [found, Option.getD_some] at value
    by_cases positive : 0 < info.lookCount <;> simp [updateLevelInfo, found, levelPlay_setLevel, ← value, positive]

@[simp] theorem online_standTable :
    (stat.updateTerminalInfo .standTable terminalType).online = stat.online :=
  (online_modifyTerminal stat terminalType _).trans (Function.update_eq_self ..)

@[simp] theorem onPlay_standTable :
    (stat.updateTerminalInfo .standTable terminalType).onPlay = stat.onPlay :=
  (onPlay_modifyTerminal stat terminalType _).trans (Function.update_eq_self ..)

@[simp] theorem online_standLeaveTable :
    (stat.updateTerminalInfo .standLeaveTable terminalType).online = stat.online := by
  refine (online_modifyTerminal stat terminalType _).trans (Eq.trans ?_ (Function.update_eq_self terminalType _))
  congr 1
  split <;> rfl

@[simp] theorem onPlay_standLeaveTable :
    (stat.updateTerminalInfo .standLeaveTable terminalType).onPlay = stat.onPlay := by
  refine (onPlay_modifyTerminal stat terminalType _).trans (Eq.trans ?_ (Function.update_eq_self terminalType _))
  congr 1
  split <;> rfl

private theorem online_moveOnPlay (previous : Int16) :
    (stat.moveOnPlay previous terminalType).online = stat.online := by
  rw [moveOnPlay]
  split
  · have first := online_modifyTerminal stat previous fun info => { info with onPlayCount := info.onPlayCount - 1 }
    refine (online_modifyTerminal _ terminalType _).trans ((Function.update_eq_self terminalType _).trans (first.trans ?_))
    exact Function.update_eq_self previous stat.online
  · rfl

private theorem onPlay_moveOnPlay (previous : Int16) : (stat.moveOnPlay previous terminalType).onPlay =
    if 0 < stat.onPlay previous then raise (lower stat.onPlay previous) terminalType else stat.onPlay := by
  rw [moveOnPlay]
  by_cases playing : 0 < stat.onPlay previous
  · have first : (stat.modifyTerminal previous fun info => { info with
        onPlayCount := info.onPlayCount - 1 }).onPlay = lower stat.onPlay previous := by
      rw [onPlay_modifyTerminal, lower, if_pos playing]
      rfl
    rw [if_pos (show 0 < (stat.terminal previous).onPlayCount from playing), if_pos playing]
    refine (onPlay_modifyTerminal _ terminalType _).trans ?_
    rw [raise, ← first]
    rfl
  · rw [if_neg (show ¬ 0 < (stat.terminal previous).onPlayCount from playing), if_neg playing]

private theorem online_moveOnline (previous : Int16) :
    (stat.moveOnline previous terminalType).online = raise (lower stat.online previous) terminalType := by
  have left : (stat.modifyTerminal previous _).online = lower stat.online previous := stat.online_logoutHall previous
  refine (online_modifyTerminal _ terminalType _).trans ?_
  rw [raise, ← left]
  rfl

private theorem onPlay_moveOnline (previous : Int16) :
    (stat.moveOnline previous terminalType).onPlay = stat.onPlay := by
  have left : (stat.modifyTerminal previous _).onPlay = stat.onPlay := stat.onPlay_logoutHall previous
  exact (onPlay_modifyTerminal _ terminalType _).trans ((Function.update_eq_self terminalType _).trans left)

private theorem online_found (previous : Int16) :
    ((stat.modifyTerminal previous id).modifyTerminal terminalType id).online = stat.online :=
  (online_modifyTerminal _ terminalType _).trans ((Function.update_eq_self terminalType _).trans
    ((online_modifyTerminal stat previous _).trans (Function.update_eq_self previous _)))

private theorem onPlay_found (previous : Int16) :
    ((stat.modifyTerminal previous id).modifyTerminal terminalType id).onPlay = stat.onPlay :=
  (onPlay_modifyTerminal _ terminalType _).trans ((Function.update_eq_self terminalType _).trans
    ((onPlay_modifyTerminal stat previous _).trans (Function.update_eq_self previous _)))

/-- A user who logs in again under another terminal type is counted there instead. -/
@[simp] theorem online_loginHall_again (pre : UserStat) :
    (stat.updateTerminalInfo (.loginHall (some pre)) terminalType).online =
      if pre.terminalType = terminalType then stat.online
      else raise (lower stat.online pre.terminalType) terminalType := by
  simp only [updateTerminalInfo, userLoginHall]
  split_ifs <;> simp_all [online_found, online_moveOnline, online_moveOnPlay]

@[simp] theorem onPlay_loginHall_again (pre : UserStat) :
    (stat.updateTerminalInfo (.loginHall (some pre)) terminalType).onPlay =
      if pre.terminalType ≠ terminalType ∧ pre.tid ≠ 0 ∧ 0 < stat.onPlay pre.terminalType then
        raise (lower stat.onPlay pre.terminalType) terminalType
      else stat.onPlay := by
  simp only [updateTerminalInfo, userLoginHall]
  split_ifs <;> simp_all [onPlay_found, onPlay_moveOnline, onPlay_moveOnPlay]

end Stat

end TeenpattiUserServer.UserServer
