import ProxyMax.Core.Server

/-!
`src/core/server.c` without a pool: `server_loop_per_connection` with a detached thread for
each connection, and `server_loop_event_driven` with connections handled in the loop.

* `DetachedState`, `detachedStep`: the main thread and the detached ones, which outlive it.
* `DetachedState.owned`: the connections that some thread has.
* `detached_connections`: in every run, every connection created is destroyed or with
  exactly one thread, and the event-driven loop has one at most.
-/

namespace ProxyMax

open Machine
open scoped List

/-- The threading models that do not use the pool. -/
inductive LoopModel where
  | perConnection
  | eventDriven
  deriving DecidableEq

/-- Where the main thread is. In the event-driven loop `events` counts the events of the round
that come after the one at hand; the other loop has one each round. -/
inductive LoopPoint where
  | running
  | polling
  | accepting (events : ℕ)
  | created (events : ℕ) (conn : ConnectionId)
  | refused (conn : ConnectionId)
  | finished
  deriving DecidableEq

/-- The main thread, and the connections of the detached threads that run. -/
structure DetachedState where
  gRunning : Bool
  main : LoopPoint
  threads : List ConnectionId
  fresh : ConnectionId
  deriving DecidableEq

/-- After `proxy_server_init`, before the loop. -/
def detachedInit : DetachedState := ⟨true, .running, [], 0⟩

/-- A step of some thread, with the outcome of its system call. -/
inductive DetachedCall where
  | stop
  | check
  | poll (r : Polled)
  | accept (r : Accepted)
  | spawn (createOk : Bool)
  | refuse
  | handle
  | leave (conn : ConnectionId)

/-- What is seen of a step. -/
inductive DetachedEvent where
  | quiet
  | created (conn : ConnectionId)
  | destroyed (conn : ConnectionId)
  deriving DecidableEq

/-- The next event of the round, or the next round. -/
def nextRound : ℕ → LoopPoint
  | 0 => .running
  | events + 1 => .accepting events

/-- A step; there is none where the thread is not at that point. -/
def detachedStep (model : LoopModel) (s : DetachedState) (call : DetachedCall) :
    Option (DetachedEvent × DetachedState) :=
  match call, s.main with
  | .stop, _ => some (.quiet, { s with gRunning := false })
  | .check, .running =>
      if s.gRunning then
        match model with
        | .perConnection => some (.quiet, { s with main := .accepting 0 })
        | .eventDriven => some (.quiet, { s with main := .polling })
      else some (.quiet, { s with main := .finished })
  | .poll .interrupted, .polling => some (.quiet, { s with main := .running })
  | .poll .failed, .polling => some (.quiet, { s with main := .finished })
  | .poll (.events nfds), .polling => some (.quiet, { s with main := nextRound nfds })
  | .accept .connected, .accepting events =>
      some (.created s.fresh, { s with main := .created events s.fresh, fresh := s.fresh + 1 })
  | .accept _, .accepting events => some (.quiet, { s with main := nextRound events })
  | .spawn createOk, .created events conn =>
      -- `pthread_create` with `handle_connection_thread`
      if model = .perConnection then
        if createOk then
          some (.quiet, { s with main := nextRound events, threads := s.threads ++ [conn] })
        else some (.quiet, { s with main := .refused conn })
      else none
  | .refuse, .refused conn => some (.destroyed conn, { s with main := .running })
  | .handle, .created events conn =>
      -- `handle_connection_worker` in the loop, which ends in `connection_destroy`
      if model = .eventDriven then some (.destroyed conn, { s with main := nextRound events })
      else none
  | .leave conn, _ =>
      -- the end of `handle_connection_worker` in a detached thread
      if conn ∈ s.threads then some (.destroyed conn, { s with threads := s.threads.erase conn })
      else none
  | _, _ => none

/-! ### Who has the connections -/

/-- The connection that the main thread has. -/
def LoopPoint.holds : LoopPoint → List ConnectionId
  | .created _ conn | .refused conn => [conn]
  | _ => []

/-- The connections that some thread has. -/
def DetachedState.owned (s : DetachedState) : List ConnectionId := s.main.holds ++ s.threads

def DetachedEvent.creates : DetachedEvent → List ConnectionId
  | .created conn => [conn]
  | _ => []

def DetachedEvent.destroys : DetachedEvent → List ConnectionId
  | .destroyed conn => [conn]
  | _ => []

lemma nextRound_holds (events : ℕ) : (nextRound events).holds = [] := by
  cases events <;> rfl

/-- What a step does to the connections: what is created is new, and what some thread had or
has got is destroyed or with some thread. -/
structure Handed (model : LoopModel) (s s' : DetachedState) (event : DetachedEvent) : Prop where
  owned : (event.creates ++ s.owned).Perm (event.destroys ++ s'.owned)
  fresh : (event.creates = [] ∧ s'.fresh = s.fresh) ∨
    (event.creates = [s.fresh] ∧ s'.fresh = s.fresh + 1)
  alone : model = .eventDriven → s.threads = [] → s'.threads = []

/-- A step of the main thread that no connection sees. -/
lemma handed_main {model : LoopModel} {s : DetachedState} {running : Bool} {main : LoopPoint}
    (h : main.holds = s.main.holds) :
    Handed model s { s with gRunning := running, main } .quiet where
  owned := by
    rw [DetachedState.owned, DetachedState.owned]
    simp [h, DetachedEvent.creates, DetachedEvent.destroys]
  fresh := .inl ⟨rfl, rfl⟩
  alone := fun _ h => h

/-- The main thread destroys the connection that it has. -/
lemma handed_destroyed {model : LoopModel} {s : DetachedState} {main : LoopPoint}
    {conn : ConnectionId} (hfrom : s.main.holds = [conn]) (hto : main.holds = []) :
    Handed model s { s with main } (.destroyed conn) where
  owned := by
    rw [DetachedState.owned, DetachedState.owned]
    simp [hfrom, hto, DetachedEvent.creates, DetachedEvent.destroys]
  fresh := .inl ⟨rfl, rfl⟩
  alone := fun _ h => h

/-- A detached thread is begun with the connection of the main thread. -/
lemma handed_spawned {s : DetachedState} {main : LoopPoint} {conn : ConnectionId}
    (hfrom : s.main.holds = [conn]) (hto : main.holds = []) :
    Handed .perConnection s { s with main, threads := s.threads ++ [conn] } .quiet where
  owned := by
    rw [DetachedState.owned, DetachedState.owned]
    simp only [hfrom, hto, DetachedEvent.creates, DetachedEvent.destroys, List.nil_append]
    exact List.perm_append_comm
  fresh := .inl ⟨rfl, rfl⟩
  alone := fun h => by cases h

/-- A detached thread destroys its connection. -/
lemma handed_left {model : LoopModel} {s : DetachedState} {conn : ConnectionId}
    (hconn : conn ∈ s.threads) :
    Handed model s { s with threads := s.threads.erase conn } (.destroyed conn) where
  owned := by
    rw [DetachedState.owned, DetachedState.owned]
    calc [] ++ (s.main.holds ++ s.threads)
        = s.main.holds ++ s.threads := List.nil_append _
      _ ~ s.main.holds ++ conn :: s.threads.erase conn :=
          (List.perm_cons_erase hconn).append_left _
      _ ~ [conn] ++ (s.main.holds ++ s.threads.erase conn) := List.perm_middle
  fresh := .inl ⟨rfl, rfl⟩
  alone := fun _ h => by
    rw [h] at hconn
    cases hconn

/-- What a step does, by its result. -/
lemma handed_of_eq {model : LoopModel} {s t s' : DetachedState} {e event : DetachedEvent}
    (hstep : some (e, t) = some (event, s')) (h : Handed model s t e) :
    Handed model s s' event := by
  obtain ⟨rfl, rfl⟩ := Prod.mk.inj (Option.some.inj hstep)
  exact h

/-- **The step lemma.** -/
lemma detachedStep_handed {model : LoopModel} {s s' : DetachedState} {call : DetachedCall}
    {event : DetachedEvent} (hstep : detachedStep model s call = some (event, s')) :
    Handed model s s' event := by
  obtain ⟨running, main, threads, fresh⟩ := s
  cases call with
  -- the steps of the loop: only `accept` makes a connection, which the main thread has then
  | stop =>
      exact handed_of_eq hstep (handed_main rfl)
  | check =>
      cases main with
      | running =>
          cases running with
          | false =>
              exact handed_of_eq hstep (handed_main rfl)
          | true =>
              cases model with
              | perConnection =>
                  exact handed_of_eq hstep (handed_main rfl)
              | eventDriven =>
                  exact handed_of_eq hstep (handed_main rfl)
      | _ => cases hstep
  | poll r =>
      cases main with
      | polling =>
          cases r with
          | interrupted =>
              exact handed_of_eq hstep (handed_main rfl)
          | failed =>
              exact handed_of_eq hstep (handed_main rfl)
          | events nfds =>
              exact handed_of_eq hstep (handed_main (nextRound_holds nfds))
      | _ => cases r <;> cases hstep
  | accept r =>
      cases main with
      | accepting events =>
          cases r with
          | failed =>
              exact handed_of_eq hstep (handed_main (nextRound_holds events))
          | noMemory =>
              exact handed_of_eq hstep (handed_main (nextRound_holds events))
          | connected =>
              exact handed_of_eq hstep ⟨.refl _, .inr ⟨rfl, rfl⟩, fun _ h => h⟩
      | _ => cases r <;> cases hstep
  -- the connection is handed to a thread, or destroyed by the main thread
  | spawn createOk =>
      cases main with
      | created events conn =>
          cases model with
          | eventDriven => cases hstep
          | perConnection =>
              cases createOk with
              | true =>
                  exact handed_of_eq hstep (handed_spawned rfl (nextRound_holds events))
              | false =>
                  exact handed_of_eq hstep (handed_main rfl)
      | _ => cases hstep
  | refuse =>
      cases main with
      | refused conn =>
          exact handed_of_eq hstep (handed_destroyed rfl rfl)
      | _ => cases hstep
  | handle =>
      cases main with
      | created events conn =>
          cases model with
          | perConnection => cases hstep
          | eventDriven =>
              exact handed_of_eq hstep (handed_destroyed rfl (nextRound_holds events))
      | _ => cases hstep
  -- a thread destroys its own connection
  | leave conn =>
      simp only [detachedStep] at hstep
      split at hstep
      · rename_i hconn
        exact handed_of_eq hstep (handed_left hconn)
      · cases hstep

/-! ### Every run -/

/-- The connections that a run created, in order. -/
def createdIn (log : List (DetachedCall × DetachedEvent)) : List ConnectionId :=
  log.flatMap fun x => x.2.creates

/-- The connections that a run passed to `connection_destroy`, in order. -/
def destroyedIn (log : List (DetachedCall × DetachedEvent)) : List ConnectionId :=
  log.flatMap fun x => x.2.destroys

/-- The account of a run. -/
structure DetachedAccount (model : LoopModel) (log : List (DetachedCall × DetachedEvent))
    (s : DetachedState) : Prop where
  created : createdIn log = List.range s.fresh
  owned : (createdIn log).Perm (destroyedIn log ++ s.owned)
  alone : model = .eventDriven → s.threads = []

lemma detachedInit_account (model : LoopModel) : DetachedAccount model [] detachedInit :=
  ⟨rfl, .nil, fun _ => rfl⟩

/-- **The run lemma**, for one step more. -/
lemma DetachedAccount.snoc {model : LoopModel} {log : List (DetachedCall × DetachedEvent)}
    {s s' : DetachedState} (hlog : DetachedAccount model log s) {call : DetachedCall}
    {event : DetachedEvent} (hstep : detachedStep model s call = some (event, s')) :
    DetachedAccount model (log ++ [(call, event)]) s' := by
  have hhanded := detachedStep_handed hstep
  have hcreated : createdIn (log ++ [(call, event)]) = createdIn log ++ event.creates := by
    simp [createdIn]
  have hdestroyed : destroyedIn (log ++ [(call, event)]) = destroyedIn log ++ event.destroys := by
    simp [destroyedIn]
  refine ⟨?_, ?_, fun hmodel => hhanded.alone hmodel (hlog.alone hmodel)⟩
  · rw [hcreated, hlog.created]
    rcases hhanded.fresh with ⟨hnone, hfresh⟩ | ⟨hnew, hfresh⟩
    · rw [hnone, hfresh, List.append_nil]
    · rw [hnew, hfresh, List.range_succ]
  · rw [hcreated, hdestroyed]
    calc createdIn log ++ event.creates
        ~ (destroyedIn log ++ s.owned) ++ event.creates := hlog.owned.append_right _
      _ ~ event.creates ++ (destroyedIn log ++ s.owned) := List.perm_append_comm
      _ ~ destroyedIn log ++ (event.creates ++ s.owned) := by
          rw [← List.append_assoc, ← List.append_assoc]
          exact List.perm_append_comm.append_right _
      _ ~ destroyedIn log ++ (event.destroys ++ s'.owned) := hhanded.owned.append_left _
      _ = destroyedIn log ++ event.destroys ++ s'.owned := (List.append_assoc ..).symm

/-- **Connections without a pool.** In every run of the loop that gives each connection a
detached thread, and of the one that handles connections itself, whatever system calls fail
and in whatever order the threads go on, every connection created is destroyed or with some
thread, just once in all; so none is lost and none is destroyed twice, and the event-driven
loop has one connection at most. -/
theorem detached_connections (model : LoopModel) (calls : List DetachedCall)
    (log : List (DetachedCall × DetachedEvent)) (s : DetachedState)
    (hrun : exec (detachedStep model) detachedInit calls = some (log, s)) :
    (createdIn log).Nodup ∧ (createdIn log).Perm (destroyedIn log ++ s.owned) ∧
      (model = .eventDriven → s.owned.length ≤ 1) ∧
      (s.main = .finished → s.threads = [] → (createdIn log).Perm (destroyedIn log)) := by
  have hlog : DetachedAccount model log s :=
    exec_keeps (detachedStep model) (P := DetachedAccount model)
      (fun _ _ _ _ _ _ hlog hstep => hlog.snoc hstep) (detachedInit_account model) hrun
  refine ⟨hlog.created ▸ List.nodup_range, hlog.owned, fun hmodel => ?_, fun hmain hthreads => ?_⟩
  · rw [DetachedState.owned, hlog.alone hmodel, List.append_nil]
    cases s.main <;> simp [LoopPoint.holds]
  · have howned : s.owned = [] := by rw [DetachedState.owned, hmain, hthreads]; rfl
    have hperm := hlog.owned
    rwa [howned, List.append_nil] at hperm

/-- Two connections; the thread of the first one outlives the loop, and there is none for
the second one. -/
def outlivingCalls : List DetachedCall :=
  [.check, .accept .connected, .spawn true, .check, .accept .connected, .stop, .spawn false,
    .refuse, .check, .leave 0]

/-- Both are destroyed. -/
theorem detached_connections_outliving : ∃ log s,
    exec (detachedStep .perConnection) detachedInit outlivingCalls = some (log, s) ∧
    destroyedIn log = [1, 0] ∧ (createdIn log).Perm (destroyedIn log) :=
  ⟨_, _, rfl, rfl, (detached_connections .perConnection outlivingCalls _ _ rfl).2.2.2 rfl rfl⟩

end ProxyMax
