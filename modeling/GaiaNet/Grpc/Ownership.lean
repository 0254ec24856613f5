import GaiaNet.Grpc.FailedReconnect
import GaiaNet.Lib.Transition

/-! Who owns the clients of a channel: the two pointers between calls, and what the
destructor ends. -/

namespace GaiaNet.Grpc

open Lib.Hoare Lib.Retry Lib.Transition

/-- Null or live. -/
def Handle.Owned : Handle → Prop
  | .dangling => False
  | _ => True

/-- `m_client` is null or live and, without Redis, `m_rcv_client` is live. -/
structure Holds (useRedis : Bool) (state : CallState) : Prop where
  mode : state.channel.useRedis = useRedis
  client : state.channel.client.Owned
  rcvClient : useRedis = false → ∃ client, state.channel.rcvClient = .live client

theorem Holds.setStr (holds : Holds useRedis state) (str : Bytes) :
    Holds useRedis { state with str := str } :=
  ⟨holds.mode, holds.client, holds.rcvClient⟩

theorem Holds.setStats (holds : Holds useRedis state) (stats : Statistics) :
    Holds useRedis { state with channel := { state.channel with stats := stats } } :=
  ⟨holds.mode, holds.client, holds.rcvClient⟩

theorem Holds.record (holds : Holds useRedis state) (event : Event) :
    Holds useRedis (state.record event) :=
  ⟨holds.mode, holds.client, holds.rcvClient⟩

theorem Holds.putBack (holds : Holds useRedis state) (side : Side) (inner : ClientState) :
    Holds useRedis (state.putBack side inner) := by
  cases side with
  | client => exact ⟨holds.mode, trivial, holds.rcvClient⟩
  | rcvClient => exact ⟨holds.mode, holds.client, fun _ => ⟨inner.client, rfl⟩⟩

/-- Both ends leave the pointers as a channel must hold them. -/
def KeepsHandles (useRedis : Bool) : EStateM.Result Abort CallState Value → Prop :=
  Ends (fun _ after => Holds useRedis after) (fun _ after => Holds useRedis after)

theorem onClient_holds (holds : Holds useRedis state) (side : Side) (prog : ClientM Value) :
    KeepsHandles useRedis (onClient side prog state) := by
  cases found : state.channel.handle side with
  | null | dangling =>
    obtain ⟨fault, failed⟩ := onClient_notLive prog side state (by simp [found])
    rw [failed]
    exact holds
  | live client =>
    rw [onClient_live _ found]
    cases prog ⟨client, state.str⟩ with
    | ok value inner => exact (holds.putBack side inner).record _
    | error abort inner => exact holds.putBack side inner

theorem KeepsHandles.map {prog : CallM Value} {state : CallState} (wrap : Value → Next)
    (kept : KeepsHandles useRedis (prog state)) :
    KeepsHandles useRedis ((prog >>= fun value => pure (wrap value)) state) := by
  rw [run_bind]
  cases result : prog state with
  | ok value after | error abort after =>
    rw [result] at kept
    exact kept

theorem attempt_holds (holds : Holds useRedis state) (caller : Caller) (i : Nat) :
    KeepsHandles useRedis (caller.attempt i state) := by
  cases caller with
  | realSend rounds | realRecv pulls rounds | flush rounds =>
    exact (onClient_holds holds .client _).map _

theorem pullLoop_holds (holds : Holds useRedis state) (pulls : List RecvEnv) :
    KeepsHandles useRedis (pullLoop pulls state) := by
  induction pulls generalizing state with
  | nil => exact holds
  | cons env envs ih =>
    have called := onClient_holds holds .rcvClient (recv state.channel.channelId false env)
    unfold pullLoop
    simp only [run_bind, run_get]
    cases result : onClient .rcvClient (recv state.channel.channelId false env) state with
    | error abort after =>
      rw [result] at called
      exact called
    | ok answer after =>
      rw [result] at called
      simp only [run_ite, run_pure]
      split
      · exact called
      · exact ih called

/-! `finish` followed by `delete`. -/

/-- The state once a client is finished and deleted. -/
def CallState.closed (side : Side) (env : FinishEnv) (client : RpcClient) (state : CallState) :
    CallState :=
  ((state.finished side env client).record (.deleted side (client.finished env))).setHandle side
    .dangling

/-- The calls that `finish` and `delete` make on the object a pointer points to. -/
def Handle.closing (side : Side) (env : FinishEnv) (ref : ChannelRef) : Handle → List Event
  | .live client =>
    .returned side (client.finished env) ::
      ((client.finished env).reported ref env).map Event.command ++
      [.deleted side (client.finished env)]
  | _ => []

theorem closed_trace (side : Side) (env : FinishEnv) (client : RpcClient) (state : CallState) :
    (state.closed side env client).trace =
      state.trace ++ (Handle.live client).closing side env state.channel.ref := by
  have added : (state.closed side env client).trace =
      (state.finished side env client).trace ++ [.deleted side (client.finished env)] := rfl
  rw [added, Handle.closing]
  simp [CallState.finished]

/-- Undefined behaviour inside a client's own method. -/
def Abort.InClient : Abort → Prop
  | .fault .nullStream | .fault .joinableThread => True
  | _ => False

/-- These calls are made one after the other; one of them can stop the program. -/
def Makes (calls : List Event) (before : CallState) (normal : CallState → Prop) :
    EStateM.Result Abort CallState Value → Prop :=
  Ends (fun _ after => after.trace = before.trace ++ calls ∧ normal after)
    (fun abort after => abort.InClient ∧
      ∃ made, after.trace = before.trace ++ made ∧ made <+: calls)

theorem close_makes (env : FinishEnv) (found : state.channel.handle side = .live client) :
    Makes ((Handle.live client).closing side env state.channel.ref) state
      (fun after => after = state.closed side env client)
      ((do finishClient side env; deleteClient side : CallM Unit) state) := by
  rw [run_bind]
  by_cases ready : client.CanFinish
  · rw [finishClient_open found ready]
    have later : (state.finished side env client).channel.handle side =
        .live (client.finished env) := by
      cases side <;> rfl
    cases joined : (client.finished env).recvThread with
    | false =>
      simp only [deleteClient_joined later joined]
      exact ⟨closed_trace side env client state, rfl⟩
    | true =>
      simp only [deleteClient_joinable later joined]
      exact ⟨trivial, _, rfl, List.prefix_append _ _⟩
  · rw [finishClient_closed found ready]
    exact ⟨trivial, [], (List.append_nil _).symm, List.nil_prefix⟩

/-- What `destroy_channel` calls on the clients it finds. -/
def Channel.closing (env : DestroyEnv) (channel : Channel) : List Event :=
  (if channel.useRedis then [] else channel.rcvClient.closing .rcvClient env.rcvFinish channel.ref) ++
    channel.client.closing .client env.finish channel.ref

theorem clientFinish_makes (state : CallState) (env : FinishEnv)
    (owned : state.channel.client.Owned) :
    Makes (state.channel.client.closing .client env state.channel.ref) state
      (fun after => after.channel = { state.channel with client := .null })
      (clientFinish env state) := by
  unfold clientFinish
  simp only [run_bind, run_get, run_ite]
  cases found : state.channel.client with
  | null =>
    simp only [ne_eq, not_true_eq_false, if_false]
    refine ⟨(List.append_nil _).symm, ?_⟩
    rw [← found]
  | dangling => exact (found ▸ owned).elim
  | live client =>
    have made := close_makes env (show state.channel.handle .client = .live client from found)
    rw [run_bind] at made
    simp only [ne_eq, reduceCtorEq, not_false_eq_true, if_true]
    cases ending : finishClient .client env state with
    | error abort after =>
      rw [ending] at made
      exact made
    | ok _ middle =>
      rw [ending] at made
      simp only at made ⊢
      cases deleting : deleteClient .client middle with
      | error abort after =>
        rw [deleting] at made
        exact made
      | ok _ after =>
        rw [deleting] at made
        obtain ⟨grown, rfl⟩ := made
        exact ⟨grown, rfl⟩

theorem destroyChannel_eq (env : DestroyEnv) (state : CallState) :
    destroyChannel env state =
      if state.channel.useRedis then clientFinish env.finish state
      else match (do finishClient .rcvClient env.rcvFinish; deleteClient .rcvClient : CallM Unit) state with
        | .ok _ middle => clientFinish env.finish middle
        | .error abort after => .error abort after := by
  unfold destroyChannel clientFinish
  simp only [run_bind, run_get, run_ite]
  cases state.channel.useRedis with
  | true => simp only [not_true_eq_false, if_false, if_true]
  | false =>
    simp only [Bool.false_eq_true, not_false_eq_true, if_true, if_false]
    cases finishClient .rcvClient env.rcvFinish state with
    | error abort after => rfl
    | ok _ middle =>
      simp only
      cases deleteClient .rcvClient middle <;> rfl

/-- `destroy_channel` ends each client of the channel once and leaves `m_rcv_client` dangling. -/
theorem destroyChannel_makes (env : DestroyEnv) (holds : Holds useRedis state) :
    Makes (state.channel.closing env) state
      (fun after => after.channel.useRedis = useRedis ∧ after.channel.client = .null ∧
        (useRedis = false → after.channel.rcvClient = .dangling))
      (destroyChannel env state) := by
  rw [destroyChannel_eq]
  unfold Channel.closing
  rw [holds.mode]
  cases useRedis with
  | true =>
    have made := clientFinish_makes _ env.finish holds.client
    simp only [if_true, List.nil_append]
    cases ending : clientFinish env.finish state with
    | error abort after =>
      rw [ending] at made
      exact made
    | ok _ after =>
      rw [ending] at made
      obtain ⟨grown, same⟩ := made
      refine ⟨grown, ?_⟩
      simp only [same]
      exact ⟨holds.mode, trivial, fun offline => by cases offline⟩
  | false =>
    obtain ⟨client, found⟩ := holds.rcvClient rfl
    have first := close_makes env.rcvFinish
      (show state.channel.handle .rcvClient = .live client from found)
    simp only [Bool.false_eq_true, if_false, found]
    cases closing : (do finishClient .rcvClient env.rcvFinish; deleteClient .rcvClient : CallM Unit)
        state with
    | error abort after =>
      rw [closing] at first
      obtain ⟨inClient, made, grown, early⟩ := first
      exact ⟨inClient, made, grown, early.trans (List.prefix_append _ _)⟩
    | ok _ middle =>
      rw [closing] at first
      obtain ⟨grown, rfl⟩ := first
      have last := clientFinish_makes (state.closed .rcvClient env.rcvFinish client)
        env.finish holds.client
      simp only
      cases ending : clientFinish env.finish (state.closed .rcvClient env.rcvFinish client) with
      | error abort after =>
        rw [ending] at last
        obtain ⟨inClient, made, regrown, early⟩ := last
        refine ⟨inClient, _ ++ made, ?_, (List.prefix_append_right_inj _).mpr early⟩
        rw [regrown, grown, List.append_assoc]
      | ok _ after =>
        rw [ending] at last
        obtain ⟨regrown, same⟩ := last
        constructor
        · rw [regrown, grown, List.append_assoc]
          rfl
        · simp only [same]
          exact ⟨holds.mode, trivial, fun _ => rfl⟩

/-- The destructor's wait for acks: the calls it makes and the client it leaves. -/
inductive Waits (channel : Channel) : List Event → Handle → Prop where
  | passed : Waits channel [] channel.client
  | waited (found : channel.client = .live client) (acked : Acked client after) :
    Waits channel [.returned .client after] (.live after)

/-- The destructor ends every client of the channel once and no other, after a wait
that can still go on. -/
def Destroys (polls : List FlushPoll) (env : DestroyEnv) (state : CallState) : Prop :=
  (∃ after, destructor polls env state = .error .pending after ∧ after.trace = state.trace) ∨
    ∃ wait handle, Waits state.channel wait handle ∧
      Makes (wait ++ (state.channel.setHandle handle .client).closing env) state (fun _ => True)
        (destructor polls env state)

theorem Makes.after_wait {middle before : CallState} {wait : List Event}
    (waited : middle.trace = before.trace ++ wait)
    (made : Makes calls middle normal result) :
    Makes (wait ++ calls) before (fun _ => True) result := by
  cases result with
  | ok value after =>
    refine ⟨?_, trivial⟩
    rw [made.1, waited, List.append_assoc]
  | error abort after =>
    obtain ⟨inClient, events, grown, early⟩ := made
    refine ⟨inClient, wait ++ events, ?_, (List.prefix_append_right_inj _).mpr early⟩
    rw [grown, waited, List.append_assoc]

theorem destructor_destroys (holds : Holds useRedis state) (polls : List FlushPoll)
    (env : DestroyEnv) : Destroys polls env state := by
  have unwaited : Makes ([] ++ (state.channel.setHandle state.channel.client .client).closing env) state
      (fun _ => True) (destroyChannel env state) :=
    Makes.after_wait (List.append_nil _).symm (destroyChannel_makes env holds)
  unfold Destroys destructor
  simp only [run_bind, run_get, run_ite]
  cases found : state.channel.client with
  | null =>
    simp only [ne_eq, not_true_eq_false, if_false]
    exact Or.inr ⟨[], _, .passed, unwaited⟩
  | dangling => exact (found ▸ holds.client).elim
  | live client =>
    have held : state.channel.handle .client = .live client := found
    have asked : withClient .client (do return decide ((← get).client.notackQueue = [])) state =
        .ok (decide (client.notackQueue = [])) state := by
      unfold withClient
      rw [held]
      simp only [run_bind, run_get, run_pure, putBack_same held]
    simp only [ne_eq, reduceCtorEq, not_false_eq_true, if_true, asked]
    split
    · have ended := waitFlush_ends flushMsec polls client state.str
      rw [onClient_live _ held]
      revert ended
      generalize waitFlush flushMsec polls ⟨client, state.str⟩ = result
      intro ended
      cases ended with
      | flushed acked _ | unflushed acked _ =>
        exact Or.inr ⟨_, _, .waited found acked, Makes.after_wait rfl
          (destroyChannel_makes env ((holds.putBack .client _).record _))⟩
      | waiting acked => exact Or.inl ⟨_, rfl, rfl⟩
    · exact Or.inr ⟨[], _, .passed, unwaited⟩

/-! Reconnects. -/

theorem createChannel_holds (mode : state.channel.useRedis = useRedis) :
    ∃ after, createChannel true state = .ok ⟨⟩ after ∧ Holds useRedis after := by
  unfold createChannel
  simp only [run_bind, run_get, run_ite, run_pure, run_modify, not_true_eq_false, if_false]
  cases useRedis with
  | true =>
    simp only [CallState.setHandle, Channel.setHandle, mode, not_true_eq_false, if_false]
    exact ⟨_, rfl, rfl, trivial, fun offline => by cases offline⟩
  | false =>
    simp only [CallState.setHandle, Channel.setHandle, mode, Bool.false_eq_true, not_false_eq_true,
      if_true]
    exact ⟨_, rfl, rfl, trivial, fun _ => ⟨_, rfl⟩⟩

/-- What a channel is left with when `create_channel` throws in a reconnect. -/
structure Bereft (useRedis : Bool) (state : CallState) : Prop where
  mode : state.channel.useRedis = useRedis
  client : state.channel.client = .null
  rcvClient : useRedis = false → state.channel.rcvClient = .dangling

/-- The ends of a reconnect, as far as the two pointers go. -/
inductive ReconnectHolds (useRedis : Bool) : EStateM.Result Abort CallState Bool → Prop where
  | done (holds : Holds useRedis after) : ReconnectHolds useRedis (.ok ret after)
  | fault : ReconnectHolds useRedis (.error (.fault fault) after)
  | refused (bereft : Bereft useRedis after) :
    ReconnectHolds useRedis (.error (.thrown (.connectServer address)) after)

theorem retire_holds {client : RpcClient} (holds : Holds useRedis state) (env : ReconnectEnv)
    (found : state.channel.client = .live client) :
    Ends (fun _ after => Bereft useRedis after) (fun abort _ => ∃ fault, abort = .fault fault)
      (retire env state) := by
  by_cases closable : client.Closable env.finish
  · have left : Holds useRedis (state.emptied env.finish client) :=
      ⟨holds.mode, trivial, holds.rcvClient⟩
    have made := destroyChannel_makes env.destroy left
    rw [retire_closable env found closable]
    cases result : destroyChannel env.destroy (state.emptied env.finish client) with
    | ok _ after =>
      rw [result] at made
      exact ⟨made.2.1, made.2.2.1, made.2.2.2⟩
    | error abort after =>
      rw [result] at made
      obtain ⟨inClient, -⟩ := made
      cases abort with
      | fault fault => exact ⟨fault, rfl⟩
      | thrown exception => exact inClient.elim
      | pending => exact inClient.elim
  · have ended := retire_ends env found
    cases result : retire env state with
    | ok tup after =>
      rw [result] at ended
      exact absurd ended.1.1 closable
    | error abort after =>
      rw [result] at ended
      exact ended.1

theorem reconnect_holds (holds : Holds useRedis state) (env : ReconnectEnv) :
    ReconnectHolds useRedis (reconnect env state) := by
  cases found : state.channel.client with
  | null | dangling =>
    obtain ⟨fault, failed⟩ := reconnect_notLive env state (by simp [found])
    rw [failed]
    exact .fault
  | live client =>
    have retired := retire_holds holds env found
    unfold reconnect
    rw [run_bind]
    cases result : retire env state with
    | error abort after =>
      rw [result] at retired
      obtain ⟨fault, rfl⟩ := retired
      exact .fault
    | ok tup middle =>
      rw [result] at retired
      simp only [run_bind]
      cases env.connected with
      | false => exact .refused retired
      | true =>
        obtain ⟨after, made, left⟩ := createChannel_holds retired.mode
        obtain ⟨fresh, live⟩ : ∃ fresh, after.channel.client = .live fresh := by
          have created := createChannel_connected middle
          rw [made] at created
          exact ⟨_, created.2.2⟩
        simp only [made, onClient_setContinueStatus _ _ live]
        exact .done ⟨left.mode, trivial, left.rcvClient⟩

theorem refused_holds (holds : Holds useRedis start)
    (rounds : RefusedRounds (Caller.attempt caller) caller.reconnects start k last state) :
    Holds useRedis state := by
  refine rounds.invariant (Holds useRedis) holds ?_ ?_
  · intro i before middle inside refused
    have kept := attempt_holds inside caller i
    rw [refused] at kept
    exact kept
  · intro i middle value after inside repaired
    have kept := reconnect_holds inside (caller.reconnects i)
    rw [repaired] at kept
    cases kept with
    | done left => exact left

/-- What an exception leaves: only `create_channel` takes the clients away. -/
def Exception.Leaves (useRedis : Bool) (state : CallState) : Exception → Prop
  | .connectServer _ => Bereft useRedis state
  | _ => Holds useRedis state

def LeavesHandles (useRedis : Bool) : EStateM.Result Abort CallState Value → Prop :=
  Ends (fun _ after => Holds useRedis after)
    (fun abort after => ∀ exception, abort = .thrown exception → exception.Leaves useRedis after)

theorem Holds.leaves {abort : Abort} (holds : Holds useRedis state)
    (other : ∀ address, abort ≠ .thrown (.connectServer address)) :
    ∀ exception, abort = .thrown exception → exception.Leaves useRedis state := by
  intro exception same
  cases exception with
  | connectServer address => exact absurd same (other address)
  | initRpcVersion | sendData | recvData | recvTimeout | recvFailed | outOfRange => exact holds

theorem loop_leaves (holds : Holds useRedis start) (caller : Caller) :
    LeavesHandles useRedis (caller.loop start) := by
  have ended : Lib.Retry.Ends caller.attempt (fun i => reconnect (caller.reconnects i)) false start
    maxRetry (caller.loop start) := retry_ends maxRetry
  revert ended
  generalize caller.loop start = result
  intro ended
  cases ended with
  | @stopped k last before value after inside rounds stop =>
    have kept := attempt_holds (refused_holds holds rounds) caller k
    rw [stop] at kept
    exact kept
  | exhausted rounds => exact refused_holds holds rounds
  | @attemptFailed k last before abort after inside rounds failed =>
    have kept := attempt_holds (refused_holds holds rounds) caller k
    have own := attempt_neverConnects caller k before trivial
    rw [failed] at kept own
    exact Holds.leaves kept own
  | @repairFailed k last before middle abort after inside rounds refused failed =>
    have kept := attempt_holds (refused_holds holds rounds) caller k
    rw [refused] at kept
    have left := reconnect_holds kept (caller.reconnects k)
    rw [failed] at left
    intro exception same
    subst same
    cases left with
    | refused bereft => exact bereft

theorem caller_leaves (holds : Holds useRedis start) (caller : Caller) :
    LeavesHandles useRedis (caller.run start) := by
  by_cases loops : caller.Loops start
  · have looped := loop_leaves holds caller
    have concluded := run_concludes loops
    revert looped concluded
    generalize caller.loop start = ending
    generalize caller.run start = result
    intro looped concluded
    cases concluded with
    | failed => exact looped
    | threw own => exact Holds.leaves looped fun address same => own address (Abort.thrown.inj same)
    | returned stats => exact Holds.setStats looped stats
  · cases caller with
    | realSend | flush => exact absurd trivial loops
    | realRecv pulls rounds =>
      have pulled := pullLoop_holds holds pulls
      have own := pullLoop_neverConnects pulls start trivial
      have offline : start.channel.useRedis = false := eq_false_of_ne_true loops
      simp only [Caller.run]
      unfold Grpc.realRecv
      simp only [run_bind, run_get, offline, Bool.false_eq_true, not_false_eq_true, if_true]
      cases result : pullLoop pulls start with
      | error abort after =>
        rw [result] at pulled own
        exact Holds.leaves pulled own
      | ok _ after =>
        rw [result] at pulled
        exact Holds.setStats pulled _

/-! Runs of calls. -/

/-- The calls of an application before it destroys its channel. -/
inductive Use where
  | call (str : Bytes) (caller : Caller)
  | clientFinish (env : FinishEnv)

def Use.run (state : CallState) : Use → EStateM.Result Abort CallState Unit
  | .call str caller => caller.run { state with str := str }
  | .clientFinish env => Grpc.clientFinish env state

/-- The application catches exceptions and goes on. -/
def Use.next (use : Use) (state : CallState) : Option CallState :=
  match use.run state with
  | .ok _ after => some after
  | .error (.thrown _) after => some after
  | .error _ _ => none

/-- The pointers are null or live, and whatever the destructor meets it ends the live
clients once. -/
structure Owns (state : CallState) : Prop where
  client : state.channel.client.Owned
  rcvClient : state.channel.useRedis = false → state.channel.rcvClient.Owned
  destroyed : ∀ polls env, Destroys polls env state

/-- Without Redis no reconnect of the call finds the server gone. -/
def Use.Connects (use : Use) (state : CallState) : Prop :=
  match use with
  | .call str caller =>
    ¬ (state.channel.useRedis = false ∧ MeetsNoServer caller { state with str := str })
  | .clientFinish _ => True

theorem Holds.owns (holds : Holds useRedis state) : Owns state := by
  refine ⟨holds.client, ?_, destructor_destroys holds⟩
  intro offline
  obtain ⟨client, found⟩ := holds.rcvClient (holds.mode.symm.trans offline)
  rw [found]
  trivial

theorem Bereft.not_owns (bereft : Bereft false state) : ¬ Owns state := by
  intro owns
  have owned := owns.rcvClient bereft.mode
  rw [bereft.rcvClient rfl] at owned
  exact owned

/-- The destructor calls `finish` through the dangling pointer. -/
theorem Bereft.destructor_faults (bereft : Bereft false state) (polls : List FlushPoll)
    (env : DestroyEnv) : destructor polls env state = .error (.fault .deletedClient) state := by
  have dangles : state.channel.handle .rcvClient = .dangling := bereft.rcvClient rfl
  have called : withClient .rcvClient (finish state.channel.ref env.rcvFinish) state =
      .error (.fault .deletedClient) state := by
    unfold withClient
    rw [dangles]
  have finished : finishClient .rcvClient env.rcvFinish state =
      .error (.fault .deletedClient) state := by
    unfold finishClient onClient
    simp only [run_bind, run_get, called]
  unfold destructor
  simp only [run_bind, run_get, run_ite, bereft.client, ne_eq, not_true_eq_false, if_false,
    destroyChannel_eq, bereft.mode, Bool.false_eq_true, finished]

/-- With Redis nothing is lost: the local pointer is not used. -/
theorem Bereft.holds (bereft : Bereft true state) : Holds true state := by
  refine ⟨bereft.mode, ?_, fun offline => by cases offline⟩
  rw [bereft.client]
  trivial

theorem use_keeps (holds : Holds useRedis state) (connects : Use.Connects use state)
    (moved : use.next state = some after) : Holds useRedis after := by
  unfold Use.next at moved
  cases use with
  | clientFinish env =>
    have made := clientFinish_makes _ env holds.client
    simp only [Use.run] at moved
    cases result : Grpc.clientFinish env state with
    | ok _ final =>
      rw [result] at made moved
      cases moved
      obtain ⟨-, same⟩ := made
      refine ⟨?_, ?_, fun offline => ?_⟩
      · rw [same]
        exact holds.mode
      · rw [same]
        trivial
      · rw [same]
        exact holds.rcvClient offline
    | error abort final =>
      rw [result] at made moved
      obtain ⟨inClient, -⟩ := made
      cases abort with
      | fault fault => cases moved
      | thrown exception => exact inClient.elim
      | pending => cases moved
  | call str caller =>
    have left := caller_leaves (holds.setStr str) caller
    simp only [Use.run] at moved
    cases result : caller.run { state with str := str } with
    | ok _ final =>
      rw [result] at left moved
      cases moved
      exact left
    | error abort final =>
      rw [result] at left moved
      cases abort with
      | fault fault => cases moved
      | pending => cases moved
      | thrown exception =>
        cases moved
        have kept := left exception rfl
        cases exception with
        | initRpcVersion | sendData | recvData | recvTimeout | recvFailed | outOfRange => exact kept
        | connectServer address =>
          cases useRedis with
          | true => exact Bereft.holds kept
          | false =>
            obtain ⟨loops, failed⟩ := (run_connectServer caller _ _ address).mp result
            exact absurd ⟨holds.mode, loops, loop_noServer failed⟩ connects

theorem use_bereaves (holds : Holds useRedis state) (broken : ¬ Use.Connects use state) :
    ∃ after, use.next state = some after ∧ ¬ Owns after := by
  cases use with
  | clientFinish env => exact absurd trivial broken
  | call str caller =>
    obtain ⟨offline, meets⟩ := Classical.not_not.mp broken
    have mode : useRedis = false := holds.mode.symm.trans offline
    subst mode
    obtain ⟨address, after, failed, gone⟩ := meets.loop
    have thrown := (run_connectServer caller _ after address).mpr ⟨meets.1, failed⟩
    have left := caller_leaves (holds.setStr str) caller
    rw [thrown] at left
    refine ⟨after, ?_, Bereft.not_owns (left _ rfl)⟩
    unfold Use.next
    simp only [Use.run, thrown]

/-- A channel as its constructor leaves it; the constructor's caller holds `str`. -/
def CallState.constructed (fromParty toParty : UInt32) (taskid serverAddress : String)
    (useRedis : Bool) (metaMap : List (String × String)) (redisTimeoutEnv : Option Int)
    (str : Bytes) : CallState :=
  finalState (createChannel true ⟨Channel.init fromParty toParty taskid serverAddress useRedis
    metaMap redisTimeoutEnv, str, []⟩)

theorem constructed_holds (fromParty toParty : UInt32) (taskid serverAddress : String)
    (useRedis : Bool) (metaMap : List (String × String)) (redisTimeoutEnv : Option Int)
    (str : Bytes) :
    Holds useRedis (CallState.constructed fromParty toParty taskid serverAddress useRedis metaMap
      redisTimeoutEnv str) := by
  have mode : (CallState.mk (Channel.init fromParty toParty taskid serverAddress useRedis metaMap
      redisTimeoutEnv) str []).channel.useRedis = useRedis := rfl
  obtain ⟨after, made, holds⟩ := createChannel_holds mode
  unfold CallState.constructed
  rw [made]
  exact holds

/-- A channel owns its clients throughout a run, and the destructor ends each of them once,
exactly when without Redis no reconnect of the run finds the server gone. -/
theorem clients_owned (fromParty toParty : UInt32) (taskid serverAddress : String)
    (useRedis : Bool) (metaMap : List (String × String)) (redisTimeoutEnv : Option Int)
    (str : Bytes) (uses : List Use) :
    Always Use.next Owns uses (CallState.constructed fromParty toParty taskid serverAddress useRedis
        metaMap redisTimeoutEnv str) ↔
      Meets Use.next Use.Connects uses (CallState.constructed fromParty toParty taskid serverAddress
        useRedis metaMap redisTimeoutEnv str) := by
  exact Always.iff_meets (fun _ => True) (Holds useRedis) (fun _ _ _ _ _ => trivial)
    (fun _ _ _ _ holds connects moved => use_keeps holds connects moved)
    (fun _ _ holds => holds.owns) (fun _ _ _ holds broken => use_bereaves holds broken)
    uses trivial (constructed_holds ..)

/-- The first `Send` of a v2 client fails and the server is gone. -/
def goneRound : SendRound where
  send := { versions := fun _ => .ok 2, thread := ⟨true, 0, false⟩, write := false }
  reconnect := offlineReconnect

def goneSend : Use := .call [7] (.realSend fun _ => goneRound)

/-- A channel without Redis just constructed. -/
def CallState.withoutRedis : CallState :=
  .constructed 1 2 "task" "server" false [] none []

/-- After the exception `m_rcv_client` dangles, and the destructor uses it. -/
theorem client_dangles :
    ¬ Always Use.next Owns [goneSend] CallState.withoutRedis ∧
      ∃ after, goneSend.next CallState.withoutRedis = some after ∧
        after.channel.rcvClient = .dangling ∧
        destructor [] quietReconnect.destroy after = .error (.fault .deletedClient) after := by
  have moved : goneSend.next CallState.withoutRedis =
      some (finalState (goneSend.run CallState.withoutRedis)) := by
    decide +kernel
  have bereft : Bereft false (finalState (goneSend.run CallState.withoutRedis)) :=
    ⟨by decide +kernel, by decide +kernel, fun _ => by decide +kernel⟩
  exact ⟨fun always => bereft.not_owns (always.2 _ moved).head, _, moved, bereft.rcvClient rfl,
    bereft.destructor_faults _ _⟩

end GaiaNet.Grpc
