import TeenpattiUserServer.UserServer.Run
import TeenpattiUserServer.UserServer.StartReport

/-! The play counts: each is the number of stored users of its terminal type who
sit at a table, unless memcached seats a user at the login. -/

namespace TeenpattiUserServer.UserServer

open Std Bookkeeping

/-- The class a user is counted in by `onPlayCount`. -/
def playClass (user : GameUser) : Option Int16 := if 0 < user.tid then some user.terminalType else none

@[simp] private theorem playClass_seated {user : GameUser} (seated : 0 < user.tid) :
    playClass user = some user.terminalType := if_pos seated

@[simp] private theorem playClass_standing {user : GameUser} (standing : ¬ 0 < user.tid) : playClass user = none :=
  if_neg standing

private theorem depart_play (user : GameUser) (seated levelled : Bool) (book : Book) :
    ((Change.depart user seated levelled).note book).play =
      if seated then lower book.play user.terminalType else book.play := by
  cases levelled <;> cases seated <;> simp [Change.depart, Book.logoutTable, Book.updateTerminal]

/-- A user is taken out together with the count of the table that is left. -/
private theorem depart_play_balanced {user : GameUser} {seated : Bool} (levelled : Bool)
    (left : seated ↔ 0 < user.tid) :
    Balanced Book.play (inClass playClass) (Change.depart user seated levelled) := by
  refine .of_move fun book _ => ?_
  rw [depart_play]
  by_cases sits : 0 < user.tid <;> simp [Change.depart, left, sits]

private theorem leave_play_balanced (user : GameUser) (time : Int32) :
    Balanced Book.play (inClass playClass) (Change.leave user time) := by
  refine .of_move fun book _ => ?_
  have standing : ¬ (0 : Int32) < 0 := by decide
  by_cases sits : 0 < user.tid
  · simp [Change.leave, Book.logoutTable, Book.updateTerminal, sits, standing]
  · simp [Change.leave, Book.logoutTable, sits, standing]

private theorem sit_play (user : GameUser) (tid time : Int32) (level : Option Int16) (book : Book) :
    ((Change.sit user tid time level).note book).play =
      if user.tid = 0 then raise book.play user.terminalType else book.play := by
  cases level with
  | none => simp only [Change.sit, Book.loginTable]; split <;> simp [Book.updateTerminal]
  | some level =>
    simp only [Change.sit, Book.loginTable]
    split <;> split <;> simp [Book.updateTerminal]

private theorem seated_of_ne {tid : Int32} (valid : 0 ≤ tid) (some : tid ≠ 0) : 0 < tid :=
  Int32.lt_of_le_of_ne valid fun equal => some equal.symm

private theorem sit_play_balanced {user : GameUser} {tid : Int32} (time : Int32) (level : Option Int16)
    (valid : 0 ≤ user.tid) (positive : 0 < tid) :
    Balanced Book.play (inClass playClass) (Change.sit user tid time level) := by
  refine .of_move fun book counted => ?_
  rw [sit_play]
  by_cases first : user.tid = 0
  · simp [Change.sit, first, positive]
  · have seated := seated_of_ne valid first
    have playing := counted user.terminalType (by simp [Change.sit, seated])
    simp [Change.sit, first, seated, positive, raise_lower_same playing]

private theorem reenter_play_balanced {user entered : GameUser} (valid : 0 ≤ user.tid) (same : entered.tid = user.tid) :
    Balanced Book.play (inClass playClass) (Change.reenter user entered) := by
  refine .of_move fun book counted => ?_
  by_cases first : user.tid = 0
  · simp [Change.reenter, Book.updateTerminal, first, same]
  · have seated := seated_of_ne valid first
    have again : 0 < entered.tid := same ▸ seated
    have playing := counted user.terminalType (by simp [Change.reenter, seated])
    by_cases kept : user.terminalType = entered.terminalType
    · rw [kept] at playing
      simp [Change.reenter, Book.updateTerminal, kept, seated, again, raise_lower_same playing]
    · simp [Change.reenter, Book.updateTerminal, kept, first, seated, again, playing]

namespace Server

/-- No user who is new to the table is given a table id by memcached at the login. -/
def Unseeded (server : Server) (answers : Answers) : Event → Prop
  | .request (.userLogin _ _ userId _) =>
    0 < userId → server.store.lookup userId = none → seededTid answers server.options.startTime userId = 0
  | _ => True

variable {answers : Answers} {server : Server} {event : Event} {change : Change}

theorem play_balanced (positive : PositiveTable event) (unseeded : server.Unseeded answers event)
    (cause : Cause answers server event change) (valid : ∀ user, change.old = some user → 0 ≤ user.tid) :
    Balanced Book.play (inClass playClass) change := by
  cases cause with
  | @arrive uid svid userId terminalType fresh absent =>
    have standing : (loginRecord answers server svid userId terminalType none).tid = 0 := unseeded fresh absent
    have uncounted : playClass (loginRecord answers server svid userId terminalType none) = none := by
      rw [playClass, standing]
      rfl
    refine .of_same ?_ fun _ => rfl
    simp only [Change.arrive]
    split <;> simp [uncounted]
  | reenter => exact reenter_play_balanced (valid _ rfl) rfl
  | close standing => exact depart_play_balanced _ (by simp [standing])
  | expire => exact depart_play_balanced _ (by simp)
  | @flush user =>
    have seated : user.tid ≠ 0 ↔ 0 < user.tid :=
      ⟨seated_of_ne (valid user rfl), fun seated zero => by simp [zero] at seated⟩
    exact depart_play_balanced _ (by simpa using seated)
  | leave | tid0 => exact leave_play_balanced _ _
  | sit level => exact sit_play_balanced _ level (valid _ rfl) positive
  | disconnect =>
    refine .of_same rfl fun book => ?_
    simp only [Change.disconnect]
    split <;> simp
  | refresh | detach | forget => exact .of_same rfl fun _ => rfl

theorem tid_valid (positive : PositiveTable event) (unseeded : server.Unseeded answers event)
    (cause : Cause answers server event change) (valid : ∀ user, change.old = some user → 0 ≤ user.tid) :
    ∀ user, change.new = some user → 0 ≤ user.tid := by
  intro user stored
  cases cause with
  | @arrive uid svid userId terminalType fresh absent =>
    simp only [Change.arrive, Option.ite_none_right_eq_some, Option.some.injEq] at stored
    have standing : user.tid = 0 := stored.2 ▸ unseeded fresh absent
    rw [standing]
    decide
  | close | expire | flush | forget => simp [Change.depart, Change.forget] at stored
  | sit =>
    obtain rfl := Option.some.inj stored
    exact Int32.le_of_lt positive
  | leave | tid0 =>
    obtain rfl := Option.some.inj stored
    exact Int32.le_refl 0
  | @reenter _ _ _ _ before | @refresh _ _ _ _ before | @detach _ before | @disconnect _ before =>
    obtain rfl := Option.some.inj stored
    exact valid before rfl

/-- The play counts agree with the table, and no table id is negative. -/
private def PlayInvariant (ledger : Ledger Int32 GameUser Book) : Prop :=
  Agrees Book.play (inClass playClass) ledger ∧ AllStored (fun _ user => 0 ≤ user.tid) ledger

private theorem play_invariant
    (reached : server.ReachedBy fun server answers event => PositiveTable event ∧ server.Unseeded answers event) :
    PlayInvariant server.ledger := by
  refine reached.invariant ⟨fun _ => rfl, fun _ _ stored => by simp at stored⟩ ?_
  rintro answers server event change - ⟨positive, unseeded⟩ cause ledger fits ⟨agrees, valid⟩
  have old : ∀ user, change.old = some user → 0 ≤ user.tid := fun user found => valid change.key user (fits.trans found)
  exact ⟨(play_balanced positive unseeded cause old).keeps fits agrees, valid.apply (tid_valid positive unseeded cause old)⟩

/-- In every run in which memcached seats nobody at a login, the play counts are
the numbers of stored users at tables, as a restart would count them. -/
theorem play_counts_agree
    (reached : server.ReachedBy fun server answers event => PositiveTable event ∧ server.Unseeded answers event)
    (terminalType : Int16) :
    server.stat.onPlay terminalType =
        server.gshm.visit.countP (fun user => user.terminalType = terminalType ∧ 0 < user.tid) ∧
      server.stat.onPlay terminalType =
        (reportStartTJData { server with stat := Stat.empty }).stat.onPlay terminalType := by
  have members : inClass playClass terminalType =
      fun user => decide (user.terminalType = terminalType ∧ 0 < user.tid) := by
    funext user
    by_cases seated : 0 < user.tid <;> simp [inClass, seated]
  have counted := (play_invariant reached).1 terminalType
  rw [members, ledger, tally_store] at counted
  have recounted := reportStartTJData_counts { server with stat := Stat.empty } rfl terminalType 0
  exact ⟨counted, counted.trans recounted.2.1.symm⟩

/-- A user logs in and sits down. -/
theorem play_counts_agree_seated :
    (((initial 1 0).processUserLogin (quiet 1000) 7 1 7 3).processReportUserEnterRoom (quiet 1001) 7 65536).stat.onPlay 3
      = 1 := by
  let entered := (initial 1 0).processUserLogin (quiet 1000) 7 1 7 3
  let seated := entered.processReportUserEnterRoom (quiet 1001) 7 65536
  have login : (initial 1 0).step (.request (.userLogin 7 1 7 3)) (quiet 1000) = some entered := rfl
  have enter : entered.step (.request (.userEnterRoom 7 65536)) (quiet 1001) = some seated := rfl
  have unseeded : (initial 1 0).Unseeded (quiet 1000) (.request (.userLogin 7 1 7 3)) := fun _ _ => by decide
  have noTable : PositiveTable (.request (.userLogin 7 1 7 3)) := trivial
  have positive : PositiveTable (.request (.userEnterRoom 7 65536)) := by
    rw [PositiveTable]
    decide
  have noLogin : entered.Unseeded (quiet 1001) (.request (.userEnterRoom 7 65536)) := trivial
  have arrived : entered.ReachedBy fun server answers event => PositiveTable event ∧ server.Unseeded answers event :=
    .next (.start (fresh_initial 1 0)) ⟨noTable, unseeded⟩ login
  have reached : seated.ReachedBy fun server answers event => PositiveTable event ∧ server.Unseeded answers event :=
    .next arrived ⟨positive, noLogin⟩ enter
  refine (play_counts_agree reached 3).1.trans ?_
  decide

/-- Memcached has the user at table 65536, and the process has just started. -/
def seatedInMemcached : Answers := { quiet 0 with onlineRecord := fun _ => [54, 53, 53, 51, 54, 44, 49, 44, 49] }

/-- The login of this user. -/
def seededLogin : Server := (initial 1 0).processUserLogin seatedInMemcached 7 1 7 3

/-- The user sits at a table from the login on, and is not counted. -/
theorem seededLogin_uncounted :
    (seededLogin.ReachedBy fun server _ event => server.Roomy event ∧ PositiveTable event) ∧
      seededLogin.stat.onPlay 3 = 0 ∧
      seededLogin.gshm.visit.countP (fun user => user.terminalType = 3 ∧ 0 < user.tid) = 1 := by
  have login : (initial 1 0).step (.request (.userLogin 7 1 7 3)) seatedInMemcached = some seededLogin := rfl
  have room : (initial 1 0).Roomy (.request (.userLogin 7 1 7 3)) := fun _ _ => by decide
  exact ⟨.next (.start (fresh_initial 1 0)) ⟨room, trivial⟩ login, by decide, by decide⟩

end Server

end TeenpattiUserServer.UserServer
