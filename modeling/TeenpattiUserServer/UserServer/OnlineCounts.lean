import TeenpattiUserServer.Bookkeeping.Counters
import TeenpattiUserServer.UserServer.Run

/-! The online counts: each is the number of stored users of its terminal type. -/

namespace TeenpattiUserServer.UserServer

open Std Bookkeeping

/-- The class a user is counted in by `onlineCount`. -/
def onlineClass (user : GameUser) : Option Int16 := some user.terminalType

private theorem depart_online (user : GameUser) (seated levelled : Bool) (book : Book) :
    ((Change.depart user seated levelled).note book).online = lower book.online user.terminalType := by
  cases levelled <;> simp [Change.depart, Book.updateTerminal]

private theorem sit_online (user : GameUser) (tid time : Int32) (level : Option Int16) (book : Book) :
    ((Change.sit user tid time level).note book).online = book.online := by
  cases level with
  | none => simp [Change.sit]
  | some level =>
    simp only [Change.sit]
    split <;> simp

theorem online_balanced {answers : Answers} {server : Server} {event : Event} {change : Change}
    (roomy : server.Roomy event) (cause : Cause answers server event change) :
    Balanced Book.online (inClass onlineClass) change := by
  cases cause with
  | arrive valid absent =>
    exact .of_move fun book _ => by simp [Change.arrive, onlineClass, roomy valid absent, Book.updateTerminal]
  | @reenter uid svid userId terminalType user =>
    refine .of_move fun book positive => ?_
    have counted : 0 < book.online user.terminalType := positive _ rfl
    by_cases same : user.terminalType = terminalType
    · simp [Change.reenter, onlineClass, loginRecord, Book.updateTerminal, ← same, raise_lower_same counted]
    · simp [Change.reenter, onlineClass, loginRecord, Book.updateTerminal, same]
  | close | expire | flush => exact .of_move fun book _ => depart_online ..
  | sit => exact .of_same rfl fun book => sit_online ..
  | disconnect =>
    refine .of_same rfl fun book => ?_
    simp only [Change.disconnect]
    split <;> simp
  | refresh | detach | forget => exact .of_same rfl fun _ => rfl
  | leave | tid0 => exact .of_same rfl fun book => by simp [Change.leave]

namespace Server

/-- Each time a user is taken out of an online count, that count is positive. -/
def GuardsOpen (ledger : Ledger Int32 GameUser Book) (changes : List Change) : Prop :=
  ∀ done change rest user, changes = done ++ change :: rest → change.old = some user →
    0 < (done.foldl Ledger.apply ledger).book.online user.terminalType

variable {server : Server}

private theorem online_reached (reached : server.ReachedBy fun server _ event => server.Roomy event) :
    Agrees Book.online (inClass onlineClass) server.ledger :=
  reached.invariant (fun _ => rfl) fun _ roomy cause _ fits => (online_balanced roomy cause).keeps fits

private theorem guards_open {answers : Answers} {event : Event} {changes : List Change}
    {after : Ledger Int32 GameUser Book} (roomy : server.Roomy event)
    (agrees : Agrees Book.online (inClass onlineClass) server.ledger) (follows : Follows server.ledger changes after)
    (causes : ∀ change ∈ changes, Cause answers server event change) : GuardsOpen server.ledger changes := by
  rintro done change rest user rfl old
  have kept : ∀ change ∈ done, ∀ ledger, change.Fits ledger → Agrees Book.online (inClass onlineClass) ledger →
      Agrees Book.online (inClass onlineClass) (ledger.apply change) :=
    fun change member ledger => (online_balanced roomy (causes change (by simp [member]))).keeps
  obtain ⟨fits, agrees⟩ := follows.holds_before kept agrees
  have counted := agrees.bound fits user.terminalType
  rw [old] at counted
  simp only [hit_some, inClass, onlineClass, decide_true, if_true] at counted
  omega

/-- In every run in which there is room for each new user, the online counts are
the numbers of stored users, a record lies under its own uid, and the guards of
the online counts suppress nothing. -/
theorem online_counts_agree (reached : server.ReachedBy fun server _ event => server.Roomy event) :
    (∀ terminalType, server.stat.online terminalType =
      server.gshm.visit.countP fun user => user.terminalType = terminalType) ∧
    (∀ uid user, server.gshm.lookup uid = some user → user.uid = uid) ∧
    ∀ answers event after, server.Roomy event → server.step event answers = some after →
      ∃ changes, Follows server.ledger changes after.ledger ∧
        (∀ change ∈ changes, Cause answers server event change) ∧ GuardsOpen server.ledger changes := by
  have agrees := online_reached reached
  refine ⟨fun terminalType => ?_, fun uid user stored => ?_, fun answers event after roomy ran => ?_⟩
  · have members : inClass onlineClass terminalType = fun user => decide (user.terminalType = terminalType) := by
      funext user
      simp [inClass, onlineClass]
    rw [← members, ← tally_store]
    exact agrees terminalType
  · exact reached.keyed uid user ((server.gshm_lookup uid).symm.trans stored)
  · obtain ⟨changes, follows, causes⟩ := step_changes reached.keyed ran
    exact ⟨changes, follows, causes, guards_open roomy agrees follows causes⟩

/-- Three users log in, and one of them again from another terminal. -/
def threeUsers : Server :=
  ((((initial 4 0).processUserLogin (quiet 1000) 7 1 7 3).processUserLogin (quiet 1001) 8 1 8 3).processUserLogin
    (quiet 1002) 9 2 9 4).processUserLogin (quiet 1003) 8 2 8 4

private theorem login_reached (reached : server.ReachedBy fun server _ event => server.Roomy event)
    (room : server.gshm.freeNodes ≠ 0) (answers : Answers) (uid svid userId : Int32) (terminalType : Int16) :
    (server.processUserLogin answers uid svid userId terminalType).ReachedBy fun server _ event => server.Roomy event := by
  have roomy : server.Roomy (.request (.userLogin uid svid userId terminalType)) := fun _ _ => room
  have ran : server.step (.request (.userLogin uid svid userId terminalType)) answers =
      some (server.processUserLogin answers uid svid userId terminalType) := rfl
  exact .next reached roomy ran

private theorem threeUsers_reached : threeUsers.ReachedBy fun server _ event => server.Roomy event := by
  have first := login_reached (.start (fresh_initial 4 0)) (by decide) (quiet 1000) 7 1 7 3
  have second := login_reached first (by decide) (quiet 1001) 8 1 8 3
  have third := login_reached second (by decide) (quiet 1002) 9 2 9 4
  exact login_reached third (by decide) (quiet 1003) 8 2 8 4

theorem online_counts_agree_threeUsers :
    threeUsers.stat.online 3 = 1 ∧ threeUsers.stat.online 4 = 2 ∧ ∀ terminalType,
      threeUsers.stat.online terminalType = threeUsers.gshm.visit.countP fun user => user.terminalType = terminalType :=
  ⟨by decide, by decide, (online_counts_agree threeUsers_reached).1⟩

end Server

end TeenpattiUserServer.UserServer
