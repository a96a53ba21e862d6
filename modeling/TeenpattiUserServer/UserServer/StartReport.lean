import TeenpattiUserServer.UserServer.Book

/-! `ReportStartTJData`: at the start the statistics are counted from the table
that the shared memory still holds. -/

namespace TeenpattiUserServer.UserServer

open Bookkeeping

namespace Server

/-- The visit of one user. -/
def startVisit (stat : Stat) (user : GameUser) : Stat :=
  let stat := stat.updateTerminalInfo (.loginHall none) user.terminalType
  if 0 < user.tid then
    (stat.updateTerminalInfo .loginTable user.terminalType).updateLevelInfo .login user.serverLevel
  else stat

def reportStartTJData (server : Server) : Server :=
  { server with stat := server.gshm.visit.foldl startVisit server.stat }

private theorem online_startVisit (stat : Stat) (user : GameUser) (terminalType : Int16) :
    (startVisit stat user).online terminalType =
      stat.online terminalType + if user.terminalType = terminalType then 1 else 0 := by
  rw [← raise_apply, startVisit]
  split <;> simp

private theorem onPlay_startVisit (stat : Stat) (user : GameUser) (terminalType : Int16) :
    (startVisit stat user).onPlay terminalType =
      stat.onPlay terminalType + if user.terminalType = terminalType ∧ 0 < user.tid then 1 else 0 := by
  rw [startVisit]
  split
  · next seated => simp [raise_apply, seated]
  · next standing => simp [standing]

private theorem levelPlay_startVisit (stat : Stat) (user : GameUser) (level : Int16) :
    (startVisit stat user).levelPlay level =
      stat.levelPlay level + if user.serverLevel = level ∧ 0 < user.tid then 1 else 0 := by
  rw [startVisit]
  split
  · next seated => simp [raise_apply, seated]
  · next standing => simp [standing]

/-- A count that each visit raises for the users with a property. -/
private theorem foldl_startVisit (count : Stat → Int) (p : GameUser → Bool)
    (visit : ∀ stat user, count (startVisit stat user) = count stat + if p user then 1 else 0)
    (users : List GameUser) (stat : Stat) : count (users.foldl startVisit stat) = count stat + users.countP p := by
  induction users generalizing stat with
  | nil => simp
  | cons user users ih =>
    rw [List.foldl_cons, ih, visit, List.countP_cons]
    split <;> omega

variable (server : Server)

/-- The counts from the table: users by terminal type, and seated users by
terminal type and by level. -/
theorem reportStartTJData_counts (empty : server.stat = Stat.empty) (terminalType level : Int16) :
    server.reportStartTJData.stat.online terminalType =
        server.gshm.visit.countP (fun user => user.terminalType = terminalType) ∧
      server.reportStartTJData.stat.onPlay terminalType =
        server.gshm.visit.countP (fun user => user.terminalType = terminalType ∧ 0 < user.tid) ∧
      server.reportStartTJData.stat.levelPlay level =
        server.gshm.visit.countP (fun user => user.serverLevel = level ∧ 0 < user.tid) := by
  have online := foldl_startVisit (fun stat => stat.online terminalType)
    (fun user => user.terminalType = terminalType) (fun stat user => by simp [online_startVisit]) server.gshm.visit
  have onPlay := foldl_startVisit (fun stat => stat.onPlay terminalType)
    (fun user => user.terminalType = terminalType ∧ 0 < user.tid) (fun stat user => by simp [onPlay_startVisit])
    server.gshm.visit
  have levelPlay := foldl_startVisit (fun stat => stat.levelPlay level)
    (fun user => user.serverLevel = level ∧ 0 < user.tid) (fun stat user => by simp [levelPlay_startVisit])
    server.gshm.visit
  rw [reportStartTJData, empty]
  exact ⟨(online _).trans (Int.zero_add _), (onPlay _).trans (Int.zero_add _), (levelPlay _).trans (Int.zero_add _)⟩

end Server

end TeenpattiUserServer.UserServer
