import Mathlib.Data.List.Basic
import TeenpattiUserServer.Loops.Iterate

/-! `CCSocketServer`: new connections are accepted in batches, and each gets a handler,
which is registered with the reactor. -/

namespace TeenpattiUserServer.Net

open Loops

/-- What a call of `accept` gives: a descriptor, or the `errno` it fails with. -/
inductive Accept where
  | newfd (fd : Nat)
  | eintr
  | eagain
  | failed
  deriving DecidableEq

/-- How far the handler of a new connection gets. -/
inductive Welcome where
  | notCreated
  | notConnected
  | notRegistered
  | registered
  deriving DecidableEq

/-- What is done with a descriptor. Handlers are numbered in the order in which they are asked for. -/
inductive Fate where
  | closed (fd : Int)
  | registered (fd : Int) (handler : Nat)
  deriving DecidableEq

namespace Fate

def fd : Fate → Int
  | closed fd => fd
  | registered fd _ => fd

def handler? : Fate → Option Nat
  | closed _ => none
  | registered _ handler => some handler

end Fate

/-- What the calls of `accept` and the handlers answer, one after the other. -/
structure AcceptAnswers where
  accept : Nat → Accept
  handling : Nat → Welcome

/-- `accepts` and `handlers` count the answers used up, `fates` is what was done with
descriptors, oldest first. -/
structure SocketServer where
  acceptCnt : Nat
  newfdCnt : Nat
  fdArray : List Int
  accepts : Nat
  handlers : Nat
  fates : List Fate
  deriving DecidableEq

namespace SocketServer

def initial (acceptCnt : Nat) : SocketServer := ⟨acceptCnt, 0, List.replicate acceptCnt (-1), 0, 0, []⟩

/-- The loop of `proc_accept`, with so many turns left. A descriptor of `-1` counts like any
other; only an interrupted call does not count. -/
def acceptLoop (accept : Nat → Accept) : Nat → SocketServer → Int × SocketServer
  | 0, server => (0, server)
  | left + 1, server =>
    let i := server.acceptCnt - (left + 1)
    let called := { server with accepts := server.accepts + 1 }
    match accept server.accepts with
    | .eintr => acceptLoop accept left called
    | .eagain => (-1, called)
    | .failed =>
      acceptLoop accept left { called with fdArray := called.fdArray.set i (-1), newfdCnt := called.newfdCnt + 1 }
    | .newfd fd =>
      acceptLoop accept left { called with fdArray := called.fdArray.set i fd, newfdCnt := called.newfdCnt + 1 }

def procAccept (accept : Nat → Accept) (server : SocketServer) : Int × SocketServer :=
  acceptLoop accept server.acceptCnt
    { server with fdArray := List.replicate server.acceptCnt (-1), newfdCnt := 0 }

/-- `~CPollerObject`: a descriptor of 0 counts as closed already. -/
def destroyed (fd : Int) : List Fate := if 0 < fd then [.closed fd] else []

/-- One turn of the loop in `proc_request`. -/
def requestTurn (handling : Nat → Welcome) (server : SocketServer) (i : Nat) : SocketServer :=
  let fd := server.fdArray.getD i (-1)
  if fd = -1 then server
  else
    let asked := { server with handlers := server.handlers + 1 }
    match handling server.handlers with
    | .notCreated => { asked with fdArray := asked.fdArray.set i (-1), fates := asked.fates ++ [.closed fd] }
    | .notConnected => { asked with fdArray := asked.fdArray.set i (-1), fates := asked.fates ++ destroyed fd }
    | .notRegistered => { asked with fdArray := asked.fdArray.set i (-1), fates := asked.fates ++ destroyed fd }
    | .registered => { asked with fates := asked.fates ++ [.registered fd server.handlers] }

def procRequest (handling : Nat → Welcome) (server : SocketServer) : SocketServer :=
  (List.range server.newfdCnt).foldl (requestTurn handling) server

/-- One turn of the loop in `InputNotify`, and whether it returns. -/
def inputTurn (answers : AcceptAnswers) (server : SocketServer) : SocketServer × Bool :=
  let (ret, accepted) := server.procAccept answers.accept
  if accepted.newfdCnt = 0 then (accepted, true)
  else (accepted.procRequest answers.handling, ret < 0)

def inputRound (answers : AcceptAnswers) (state : SocketServer × Bool) : Option (SocketServer × Bool) :=
  if state.2 then none else some (state.1.inputTurn answers)

/-- `InputNotify`, if it returns within the `fuel`. -/
def inputNotify (answers : AcceptAnswers) (fuel : Nat) (server : SocketServer) : Option SocketServer :=
  (iterate (inputRound answers) fuel (server, false)).map Prod.fst

end SocketServer

/-- The calls of one batch that fill or skip a slot: up to the first that would block. -/
def callsOf (accept : Nat → Accept) : Nat → Nat → List Accept
  | 0, _ => []
  | left + 1, call => if accept call = .eagain then [] else accept call :: callsOf accept left (call + 1)

/-- What is in a slot after the call. -/
def Accept.slot : Accept → Int
  | newfd fd => fd
  | _ => -1

def Accept.fd? : Accept → Option Nat
  | newfd fd => some fd
  | _ => none

/-- So many calls of a batch count. -/
def counted (calls : List Accept) : Nat := calls.countP (· ≠ .eintr)

/-- The descriptors of a batch that get a handler: those in the first slots, as many as calls count. -/
def servedFds (calls : List Accept) : List Nat := (calls.take (counted calls)).filterMap Accept.fd?

/-- What is done with a descriptor for which this handler is asked. -/
def fateOf (handling : Nat → Welcome) (handler fd : Nat) : List Fate :=
  match handling handler with
  | .notCreated => [.closed fd]
  | .notConnected | .notRegistered => SocketServer.destroyed fd
  | .registered => [.registered fd handler]

def fatesOf (handling : Nat → Welcome) (handler : Nat) : List Nat → List Fate
  | [] => []
  | fd :: rest => fateOf handling handler fd ++ fatesOf handling (handler + 1) rest

variable {accept : Nat → Accept} {handling : Nat → Welcome} {answers : AcceptAnswers} {server : SocketServer}

theorem callsOf_length_le (left call : Nat) : (callsOf accept left call).length ≤ left := by
  induction left generalizing call with
  | zero => exact Nat.le_refl 0
  | succ left ih =>
    rw [callsOf]
    split_ifs
    · exact Nat.zero_le _
    · exact Nat.succ_le_succ (ih (call + 1))

theorem counted_le (calls : List Accept) : counted calls ≤ calls.length := List.countP_le_length

theorem fatesOf_append (handler : Nat) (early late : List Nat) : fatesOf handling handler (early ++ late) =
    fatesOf handling handler early ++ fatesOf handling (handler + early.length) late := by
  induction early generalizing handler with
  | nil => rfl
  | cons fd rest ih =>
    have place : handler + 1 + rest.length = handler + (rest.length + 1) := by omega
    simp only [List.cons_append, fatesOf, ih, List.append_assoc, List.length_cons, place]

namespace SocketServer

/-- What the loop of `proc_accept` does in the turns that are left, with these calls. -/
structure Batch (server : SocketServer) (done : List Int) (left : Nat) (calls : List Accept)
    (result : Int × SocketServer) : Prop where
  ret : result.1 < 0 ↔ calls.length < left
  newfdCnt : result.2.newfdCnt = server.newfdCnt + counted calls
  fdArray : result.2.fdArray = done ++ calls.map Accept.slot ++ List.replicate (left - calls.length) (-1)
  accepts : result.2.accepts = server.accepts + calls.length + if calls.length < left then 1 else 0
  acceptCnt : result.2.acceptCnt = server.acceptCnt
  handlers : result.2.handlers = server.handlers
  fates : result.2.fates = server.fates

/-- A call that does not block fills or skips one slot, and the rest goes on behind it. -/
private theorem Batch.cons {next : SocketServer} {done : List Int} {left : Nat} {call : Accept} {calls : List Accept}
    {result : Int × SocketServer} (rest : Batch next (done ++ [call.slot]) left calls result)
    (newfdCnt : next.newfdCnt = server.newfdCnt + if call = .eintr then 0 else 1)
    (accepts : next.accepts = server.accepts + 1) (acceptCnt : next.acceptCnt = server.acceptCnt)
    (handlers : next.handlers = server.handlers) (fates : next.fates = server.fates) :
    Batch server done (left + 1) (call :: calls) result := by
  refine ⟨?_, ?_, ?_, ?_, rest.acceptCnt.trans acceptCnt, rest.handlers.trans handlers, rest.fates.trans fates⟩
  · rw [rest.ret, List.length_cons]
    omega
  · rw [rest.newfdCnt, newfdCnt, counted, counted, List.countP_cons]
    by_cases skipped : call = .eintr
    · simp [skipped]
    · simp [skipped]
      omega
  · rw [rest.fdArray, List.length_cons, Nat.add_sub_add_right, List.map_cons]
    simp only [List.append_assoc, List.cons_append, List.nil_append]
  · rw [rest.accepts, accepts, List.length_cons]
    split_ifs <;> omega

private theorem acceptLoop_batch (left : Nat) {done : List Int}
    (slots : server.fdArray = done ++ List.replicate left (-1)) (all : done.length + left = server.acceptCnt) :
    Batch server done left (callsOf accept left server.accepts) (acceptLoop accept left server) := by
  induction left generalizing server done with
  | zero =>
    refine ⟨by simp [acceptLoop, callsOf], by simp [acceptLoop, callsOf, counted], ?_, ?_, rfl, rfl, rfl⟩
    · simp [acceptLoop, callsOf, slots]
    · simp [acceptLoop, callsOf]
  | succ left ih =>
    have place : server.acceptCnt - (left + 1) = done.length := by omega
    have filled (fd : Int) : server.fdArray.set (server.acceptCnt - (left + 1)) fd =
        (done ++ [fd]) ++ List.replicate left (-1) := by
      rw [slots, place, List.replicate_succ, List.set_append_right _ _ (Nat.le_refl _), Nat.sub_self,
        List.set_cons_zero, List.append_assoc, List.singleton_append]
    have longer (fd : Int) : (done ++ [fd]).length + left = server.acceptCnt := by
      rw [List.length_append, List.length_singleton]
      omega
    generalize answer : accept server.accepts = call
    cases call with
    | eagain =>
      simp only [acceptLoop, callsOf, answer, if_true]
      exact ⟨by simp, by simp [counted], by simp [slots], by simp, rfl, rfl, rfl⟩
    | eintr =>
      simp only [acceptLoop, callsOf, answer, reduceCtorEq, if_false]
      have skipped : server.fdArray = (done ++ [-1]) ++ List.replicate left (-1) := by
        rw [slots, List.replicate_succ, List.append_assoc, List.singleton_append]
      have rest := @ih { server with accepts := server.accepts + 1 } _ skipped (longer (-1))
      exact .cons rest rfl rfl rfl rfl rfl
    | failed =>
      simp only [acceptLoop, callsOf, answer, reduceCtorEq, if_false]
      have rest := @ih { server with
        accepts := server.accepts + 1
        fdArray := server.fdArray.set (server.acceptCnt - (left + 1)) (-1)
        newfdCnt := server.newfdCnt + 1 } _ (filled (-1)) (longer (-1))
      exact .cons rest rfl rfl rfl rfl rfl
    | newfd fd =>
      simp only [acceptLoop, callsOf, answer, reduceCtorEq, if_false]
      have rest := @ih { server with
        accepts := server.accepts + 1
        fdArray := server.fdArray.set (server.acceptCnt - (left + 1)) fd
        newfdCnt := server.newfdCnt + 1 } _ (filled fd) (longer fd)
      exact .cons rest rfl rfl rfl rfl rfl

theorem procAccept_batch (accept : Nat → Accept) (server : SocketServer) :
    Batch { server with newfdCnt := 0 } [] server.acceptCnt (callsOf accept server.acceptCnt server.accepts)
      (server.procAccept accept) := by
  have batch := @acceptLoop_batch accept
    { server with fdArray := List.replicate server.acceptCnt (-1), newfdCnt := 0 } server.acceptCnt [] rfl
    (Nat.zero_add _)
  exact ⟨batch.ret, batch.newfdCnt, batch.fdArray, batch.accepts, batch.acceptCnt, batch.handlers, batch.fates⟩

/-- The first slots are done, and these descriptors were found in them. -/
structure Requested (handling : Nat → Welcome) (server : SocketServer) (fds : List Nat) (slots : Nat)
    (after : SocketServer) : Prop where
  fates : after.fates = server.fates ++ fatesOf handling server.handlers fds
  handlers : after.handlers = server.handlers + fds.length
  later : ∀ i, slots ≤ i → after.fdArray.getD i (-1) = server.fdArray.getD i (-1)
  accepts : after.accepts = server.accepts
  acceptCnt : after.acceptCnt = server.acceptCnt

private theorem getD_set_later {slots : List Int} {i j : Nat} (later : i + 1 ≤ j) (fd : Int) :
    (slots.set i fd).getD j (-1) = slots.getD j (-1) := by
  rw [List.getD_eq_getElem?_getD, List.getD_eq_getElem?_getD, List.getElem?_set_ne (by omega)]

/-- A descriptor in the next slot gets the next handler. -/
private theorem Requested.turn {fds : List Nat} {i fd : Nat} {after : SocketServer}
    (before : Requested handling server fds i after) (slot : after.fdArray.getD i (-1) = fd) :
    Requested handling server (fds ++ [fd]) (i + 1) (requestTurn handling after i) := by
  have real : (fd : Int) ≠ -1 := by omega
  have fates : server.fates ++ fatesOf handling server.handlers (fds ++ [fd]) =
      after.fates ++ fateOf handling after.handlers fd := by
    rw [before.fates, fatesOf_append, before.handlers, fatesOf, fatesOf, List.append_nil, List.append_assoc]
  have handlers : after.handlers + 1 = server.handlers + (fds ++ [fd]).length := by
    rw [before.handlers, List.length_append, List.length_singleton, Nat.add_assoc]
  have kept (j : Nat) (later : i + 1 ≤ j) : after.fdArray.getD j (-1) = server.fdArray.getD j (-1) :=
    before.later j (by omega)
  have cleared (j : Nat) (later : i + 1 ≤ j) :
      (after.fdArray.set i (-1)).getD j (-1) = server.fdArray.getD j (-1) :=
    (getD_set_later later (-1)).trans (kept j later)
  simp only [requestTurn, slot, real, if_false]
  rw [fateOf] at fates
  cases outcome : handling after.handlers with
  | registered =>
    rw [outcome] at fates
    exact ⟨fates.symm, handlers, kept, before.accepts, before.acceptCnt⟩
  | notCreated | notConnected | notRegistered =>
    rw [outcome] at fates
    exact ⟨fates.symm, handlers, cleared, before.accepts, before.acceptCnt⟩

private theorem requested_calls {calls : List Accept}
    (slots : ∀ i call, calls[i]? = some call → server.fdArray.getD i (-1) = call.slot) {n : Nat}
    (inside : n ≤ calls.length) :
    Requested handling server ((calls.take n).filterMap Accept.fd?) n
      ((List.range n).foldl (requestTurn handling) server) := by
  induction n with
  | zero => exact ⟨(List.append_nil _).symm, rfl, fun _ _ => rfl, rfl, rfl⟩
  | succ n ih =>
    have before := ih (by omega)
    have here : calls[n]? = some calls[n] := List.getElem?_eq_getElem (by omega)
    have slot := (before.later n (Nat.le_refl n)).trans (slots n calls[n] here)
    rw [List.range_succ, List.foldl_append, List.foldl_cons, List.foldl_nil, List.take_add_one, here,
      Option.toList_some, List.filterMap_append]
    generalize calls[n] = call at slot ⊢
    cases call with
    | newfd fd => exact before.turn slot
    | eintr | eagain | failed =>
      have empty : ((List.range n).foldl (requestTurn handling) server).fdArray.getD n (-1) = -1 := slot
      simp only [requestTurn, empty, if_true]
      rw [List.filterMap_cons_none rfl, List.filterMap_nil, List.append_nil]
      exact ⟨before.fates, before.handlers, fun i later => before.later i (by omega), before.accepts, before.acceptCnt⟩

/-- The calls of the next batch. -/
def batch (accept : Nat → Accept) (server : SocketServer) : List Accept :=
  callsOf accept server.acceptCnt server.accepts

/-- The batch ends the loop: a call would have blocked, or every one was interrupted. -/
def Ends (accept : Nat → Accept) (server : SocketServer) : Prop :=
  (server.batch accept).length < server.acceptCnt ∨ counted (server.batch accept) = 0

/-- What a turn of the loop in `InputNotify` does. -/
structure Turned (answers : AcceptAnswers) (server : SocketServer) (result : SocketServer × Bool) : Prop where
  done : result.2 = true ↔ server.Ends answers.accept
  fates : result.1.fates =
    server.fates ++ fatesOf answers.handling server.handlers (servedFds (server.batch answers.accept))
  handlers : result.1.handlers = server.handlers + (servedFds (server.batch answers.accept)).length
  accepts : result.1.accepts = server.accepts + (server.batch answers.accept).length +
    if (server.batch answers.accept).length < server.acceptCnt then 1 else 0
  acceptCnt : result.1.acceptCnt = server.acceptCnt

theorem inputTurn_turned (answers : AcceptAnswers) (server : SocketServer) :
    Turned answers server (server.inputTurn answers) := by
  have batch := procAccept_batch answers.accept server
  have counts : (server.procAccept answers.accept).2.newfdCnt = counted (server.batch answers.accept) :=
    batch.newfdCnt.trans (Nat.zero_add _)
  have slots (i : Nat) (call : Accept) (here : (server.batch answers.accept)[i]? = some call) :
      (server.procAccept answers.accept).2.fdArray.getD i (-1) = call.slot := by
    obtain ⟨inside, rfl⟩ := List.getElem?_eq_some_iff.mp here
    have field := batch.fdArray
    rw [List.nil_append] at field
    rw [field, List.getD_eq_getElem?_getD, List.getElem?_append_left (by rw [List.length_map]; exact inside),
      List.getElem?_map]
    exact congrArg (fun found : Option Accept => (found.map Accept.slot).getD (-1)) here
  have served : Requested answers.handling (server.procAccept answers.accept).2
      (servedFds (server.batch answers.accept)) (counted (server.batch answers.accept))
      ((server.procAccept answers.accept).2.procRequest answers.handling) := by
    rw [procRequest, counts]
    exact requested_calls slots (counted_le _)
  have ret : (server.procAccept answers.accept).1 < 0 ↔
      (server.batch answers.accept).length < server.acceptCnt := batch.ret
  have none (idle : counted (server.batch answers.accept) = 0) : servedFds (server.batch answers.accept) = [] := by
    rw [servedFds, idle, List.take_zero, List.filterMap_nil]
  simp only [inputTurn]
  by_cases idle : counted (server.batch answers.accept) = 0
  · rw [if_pos (counts.trans idle)]
    refine ⟨iff_of_true rfl (.inr idle), ?_, ?_, batch.accepts, batch.acceptCnt⟩
    · rw [none idle, fatesOf, List.append_nil]
      exact batch.fates
    · rw [none idle]
      exact batch.handlers
  · rw [if_neg (counts ▸ idle)]
    refine ⟨?_, ?_, ?_, served.accepts.trans batch.accepts, served.acceptCnt.trans batch.acceptCnt⟩
    · rw [decide_eq_true_eq, ret, Ends, or_iff_left idle]
    · refine served.fates.trans ?_
      rw [batch.fates, batch.handlers]
    · refine served.handlers.trans ?_
      rw [batch.handlers]

end SocketServer

end TeenpattiUserServer.Net
