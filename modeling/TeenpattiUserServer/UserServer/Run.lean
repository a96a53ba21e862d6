import TeenpattiUserServer.Bookkeeping.Runs
import TeenpattiUserServer.UserServer.Sweeps

/-! Runs of the server from its start, and how an invariant of the ledger is
shown of all of them: change by change. -/

namespace TeenpattiUserServer.UserServer

open Std Bookkeeping

/-- Every change stores the record under its uid. -/
private theorem Cause.own {answers : Answers} {server : Server} {event : Event} {change : Change}
    (cause : Cause answers server event change) (keyed : server.Keyed) {user : GameUser}
    (stored : change.new = some user) : user.uid = change.key := by
  cases cause with
  | arrive =>
    simp only [Change.arrive, Option.ite_none_right_eq_some, Option.some.injEq] at stored
    rw [← stored.2]
    rfl
  | reenter _ found =>
    obtain rfl := Option.some.inj stored
    exact (keyed _ _ found).symm
  | close | expire | flush | forget => simp [Change.depart, Change.forget] at stored
  | _ =>
    obtain rfl := Option.some.inj stored
    rfl

namespace Server

/-- An empty table, empty statistics and an empty offline list; the rest is arbitrary. -/
structure Fresh (server : Server) : Prop where
  users : server.gshm.users = ∅
  stat : server.stat = Stat.empty
  offline : server.options.offlineUserMgr = ∅

theorem fresh_initial (nodes : Nat) (startTime : Int32) : (initial nodes startTime).Fresh := ⟨rfl, rfl, rfl⟩

theorem Fresh.store {server : Server} (fresh : server.Fresh) : server.store = ∅ := by
  rw [Server.store, fresh.users]
  rfl

theorem Fresh.keyed {server : Server} (fresh : server.Fresh) : server.Keyed := by
  intro uid user found
  simp [fresh.store] at found

theorem Fresh.book {server : Server} (fresh : server.Fresh) :
    server.book = ⟨fun _ => 0, fun _ => 0, fun _ => 0, fun _ => none⟩ := by
  rw [Server.book, fresh.stat, fresh.offline]
  congr

/-- The states reached from a fresh one when each step is allowed where it is made. -/
def ReachedBy (allowed : Server → Answers → Event → Prop) : Server → Prop :=
  Reached Fresh (fun input : Event × Answers => step input.1 input.2)
    fun server input => allowed server input.2 input.1

theorem ReachedBy.next {allowed : Server → Answers → Event → Prop} {server after : Server} {event : Event}
    {answers : Answers} (reached : server.ReachedBy allowed) (permitted : allowed server answers event)
    (ran : server.step event answers = some after) : after.ReachedBy allowed :=
  @Reached.step _ _ _ _ _ server (event, answers) after reached permitted ran

/-- What the changes of an event keep is kept by the step. -/
theorem step_keeps (inv : Ledger Int32 GameUser Book → Prop) {answers : Answers} {server after : Server}
    {event : Event} (keyed : server.Keyed) (ran : server.step event answers = some after)
    (kept : ∀ change, Cause answers server event change →
      ∀ ledger, change.Fits ledger → inv ledger → inv (ledger.apply change))
    (holds : inv server.ledger) : inv after.ledger := by
  obtain ⟨changes, follows, causes⟩ := step_changes keyed ran
  exact follows.keeps (fun change member => kept change (causes change member)) holds

theorem step_keyed {answers : Answers} {server after : Server} {event : Event} (keyed : server.Keyed)
    (ran : server.step event answers = some after) : after.Keyed := by
  let own (uid : Int32) (user : GameUser) : Prop := user.uid = uid
  have kept : AllStored own after.ledger :=
    step_keeps (AllStored own) keyed ran (fun _ cause _ _ all => all.apply fun _ stored => cause.own keyed stored) keyed
  exact kept

variable {allowed : Server → Answers → Event → Prop} {server : Server}

theorem ReachedBy.keyed (reached : server.ReachedBy allowed) : server.Keyed :=
  Reached.invariant (fun _ => Fresh.keyed) (fun keyed _ ran => step_keyed keyed ran) reached

/-- An invariant of the empty ledger which every change keeps holds in every run. -/
theorem ReachedBy.invariant {inv : Ledger Int32 GameUser Book → Prop}
    (empty : inv ⟨∅, ⟨fun _ => 0, fun _ => 0, fun _ => 0, fun _ => none⟩⟩)
    (kept : ∀ {answers server event change}, inv server.ledger → allowed server answers event →
      Cause answers server event change → ∀ ledger, change.Fits ledger → inv ledger → inv (ledger.apply change))
    (reached : server.ReachedBy allowed) : inv server.ledger := by
  let sound (state : Server) : Prop := state.Keyed ∧ inv state.ledger
  have both : sound server := by
    refine Reached.invariant (fun state fresh => ?_) (fun holds permitted ran => ?_) reached
    · refine ⟨Fresh.keyed fresh, ?_⟩
      rw [ledger, Fresh.store fresh, Fresh.book fresh]
      exact empty
    · obtain ⟨keyed, holds⟩ := holds
      exact ⟨step_keyed keyed ran, step_keeps inv keyed ran (fun _ cause => kept holds permitted cause) holds⟩
  exact both.2

/-- Memcached knows nothing, and the clock stands still. -/
def quiet (time : Int32) : Answers := ⟨fun _ => time, fun _ => 0, fun _ => [], fun _ => [], none⟩

/-! What the runs below are restricted to. -/

/-- The table is not full when a new user logs in. -/
def Roomy (server : Server) : Event → Prop
  | .request (.userLogin _ _ userId _) =>
    0 < userId → server.store.lookup userId = none → server.gshm.freeNodes ≠ 0
  | _ => True

theorem exists_of_not_roomy {server : Server} {event : Event} (full : ¬ server.Roomy event) :
    ∃ uid svid userId terminalType, event = .request (.userLogin uid svid userId terminalType) ∧ 0 < userId ∧
      server.store.lookup userId = none ∧ server.gshm.freeNodes = 0 := by
  unfold Roomy at full
  split at full
  · simp only [Classical.not_imp, not_not] at full
    exact ⟨_, _, _, _, rfl, full⟩
  · exact absurd trivial full

/-- A user enters a room with a positive table id. -/
def PositiveTable : Event → Prop
  | .request (.userEnterRoom _ tid) => 0 < tid
  | _ => True

/-- A user logs in at a hall, which is not the id that stands for none. -/
def AtHall : Event → Prop
  | .request (.userLogin _ svid _ _) => svid ≠ -1
  | _ => True

end Server

end TeenpattiUserServer.UserServer
