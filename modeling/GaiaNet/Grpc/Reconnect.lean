import GaiaNet.Grpc.Calls
import GaiaNet.Grpc.Channel

/-! Calls through a client pointer, and the ends of a reconnect. -/

namespace GaiaNet.Grpc

open Lib.Hoare

@[simp] theorem Channel.handle_setHandle (channel : Channel) (side : Side) (handle : Handle) :
    (channel.setHandle handle side).handle side = handle := by
  cases side <;> rfl

/-- Nothing but the clients and the trace has changed. -/
structure Frame (before after : CallState) : Prop where
  str : after.str = before.str
  channel : after.channel =
    { before.channel with client := after.channel.client, rcvClient := after.channel.rcvClient }

theorem Frame.refl (state : CallState) : Frame state state := ⟨rfl, rfl⟩

theorem Frame.trans (first : Frame before middle) (second : Frame middle after) :
    Frame before after := by
  refine ⟨second.str.trans first.str, ?_⟩
  rw [second.channel, first.channel]

theorem Frame.stats (frame : Frame before after) : after.channel.stats = before.channel.stats := by
  rw [frame.channel]

theorem Frame.useRedis (frame : Frame before after) :
    after.channel.useRedis = before.channel.useRedis := by
  rw [frame.channel]

theorem Frame.newClient (frame : Frame before after) :
    after.channel.newClient = before.channel.newClient := by
  rw [frame.channel]
  rfl

theorem Frame.setHandle (side : Side) (handle : Handle) (state : CallState) :
    Frame state (state.setHandle side handle) := by
  cases side <;> exact ⟨rfl, rfl⟩

theorem Frame.record (event : Event) (state : CallState) : Frame state (state.record event) :=
  ⟨rfl, rfl⟩

theorem putBack_same {state : CallState} (found : state.channel.handle side = .live client) :
    state.putBack side ⟨client, state.str⟩ = state := by
  obtain ⟨channel, str, trace⟩ := state
  cases side
  · have same : channel.client = .live client := found
    simp [CallState.putBack, CallState.setHandle, Channel.setHandle, ← same]
  · have same : channel.rcvClient = .live client := found
    simp [CallState.putBack, CallState.setHandle, Channel.setHandle, ← same]

theorem onClient_live {state : CallState} (prog : ClientM Value)
    (found : state.channel.handle side = .live client) :
    onClient side prog state =
      match prog ⟨client, state.str⟩ with
      | .ok value inner =>
        .ok value ((state.putBack side inner).record (.returned side inner.client))
      | .error abort inner => .error abort (state.putBack side inner) := by
  unfold onClient
  rw [run_bind]
  unfold withClient
  simp only [found]
  cases prog ⟨client, state.str⟩ with
  | error abort inner => rfl
  | ok value inner =>
    unfold recordClient
    simp [run_bind, run_get, CallState.putBack, CallState.setHandle, run_modify, run_pure]

theorem onClient_notLive (prog : ClientM Value) (side : Side) (state : CallState)
    (missing : ∀ client, state.channel.handle side ≠ .live client) :
    ∃ fault, onClient side prog state = .error (.fault fault) state := by
  unfold onClient
  rw [run_bind]
  unfold withClient
  cases found : state.channel.handle side with
  | live client => exact absurd found (missing client)
  | null => exact ⟨_, rfl⟩
  | dangling => exact ⟨_, rfl⟩

theorem onClient_stats (side : Side) (prog : ClientM Value) (stats : Statistics) :
    Keeps (fun state => state.channel.stats = stats) (onClient side prog) := by
  rintro state rfl
  have kept (inner : ClientState) : (state.putBack side inner).channel.stats = state.channel.stats := by
    cases side <;> rfl
  cases found : state.channel.handle side with
  | live client =>
    rw [onClient_live prog found]
    cases prog ⟨client, state.str⟩ with
    | ok value inner => exact kept inner
    | error abort inner => exact kept inner
  | null | dangling =>
    obtain ⟨fault, failed⟩ := onClient_notLive prog side state (by simp [found])
    rw [failed]
    rfl

/-- A client that `finish` and `delete` can end. -/
def RpcClient.Closable (env : FinishEnv) (client : RpcClient) : Prop :=
  client.CanFinish ∧ (client.finished env).recvThread = false

/-- The state after `finish` through a pointer. -/
def CallState.finished (side : Side) (env : FinishEnv) (client : RpcClient) (state : CallState) :
    CallState :=
  { state.setHandle side (.live (client.finished env)) with
    trace := state.trace ++ .returned side (client.finished env) ::
      ((client.finished env).reported state.channel.ref env).map Event.command }

theorem finishClient_open {state : CallState} (found : state.channel.handle side = .live client)
    (ready : client.CanFinish) :
    finishClient side env state = .ok ⟨⟩ (state.finished side env client) := by
  unfold finishClient
  simp only [run_bind, run_get]
  rw [onClient_live _ found, finish_open _ _ _ _ ready]
  simp [CallState.putBack, CallState.setHandle, CallState.finished, CallState.record, run_modify]

theorem finishClient_closed {state : CallState} (found : state.channel.handle side = .live client)
    (closed : ¬ client.CanFinish) :
    finishClient side env state = .error (.fault .nullStream) state := by
  unfold finishClient
  simp only [run_bind, run_get]
  rw [onClient_live _ found, finish_closed _ _ _ _ closed]
  simp only [putBack_same found]

theorem finishClient_notLive {state : CallState} (env : FinishEnv)
    (missing : ∀ client, state.channel.handle side ≠ .live client) :
    ∃ fault, finishClient side env state = .error (.fault fault) state := by
  obtain ⟨fault, failed⟩ := onClient_notLive (finish state.channel.ref env) side state missing
  refine ⟨fault, ?_⟩
  unfold finishClient
  simp only [run_bind, run_get, failed]

theorem deleteClient_joined (found : state.channel.handle side = .live client)
    (joined : client.recvThread = false) :
    deleteClient side state =
      .ok ⟨⟩ ((state.record (.deleted side client)).setHandle side .dangling) := by
  unfold deleteClient
  simp only [run_bind, run_get, found, joined]
  rfl

theorem deleteClient_joinable (found : state.channel.handle side = .live client)
    (joinable : client.recvThread = true) :
    deleteClient side state = .error (.fault .joinableThread) state := by
  unfold deleteClient
  simp only [run_bind, run_get, found, joinable]
  rfl

/-- Without Redis the local client must be one that can be ended. -/
def CallState.LocalClosable (env : FinishEnv) (state : CallState) : Prop :=
  state.channel.useRedis = false →
    ∃ client, state.channel.rcvClient = .live client ∧ client.Closable env

/-- An event that is not about `m_client`. -/
def Event.Local : Event → Prop
  | .returned side _ => side = .rcvClient
  | .deleted side _ => side = .rcvClient
  | .command _ => True

/-- The trace has grown by events of this kind. -/
def Extends (kind : Event → Prop) (before after : CallState) : Prop :=
  ∃ events, after.trace = before.trace ++ events ∧ ∀ event ∈ events, kind event

theorem Extends.refl (kind : Event → Prop) (state : CallState) : Extends kind state state :=
  ⟨[], (List.append_nil _).symm, by simp⟩

theorem Extends.trans (first : Extends kind before middle) (second : Extends kind middle after) :
    Extends kind before after := by
  obtain ⟨early, grown, earlyKind⟩ := first
  obtain ⟨late, regrown, lateKind⟩ := second
  refine ⟨early ++ late, by rw [regrown, grown, List.append_assoc], ?_⟩
  intro event member
  rcases List.mem_append.mp member with inEarly | inLate
  · exact earlyKind event inEarly
  · exact lateKind event inLate

theorem Extends.weaken (grown : Extends kind before after) (weaker : ∀ event, kind event → other event) :
    Extends other before after := by
  obtain ⟨events, same, kinds⟩ := grown
  exact ⟨events, same, fun event member => weaker event (kinds event member)⟩

theorem Extends.mem (grown : Extends kind before after) (member : event ∈ after.trace) :
    event ∈ before.trace ∨ kind event := by
  obtain ⟨events, same, kinds⟩ := grown
  rw [same] at member
  rcases List.mem_append.mp member with old | new
  · exact Or.inl old
  · exact Or.inr (kinds event new)

theorem finished_extends (env : FinishEnv) (client : RpcClient) (state : CallState) (side : Side) :
    Extends (fun event => event = .returned side (client.finished env) ∨
      ∃ command, event = .command command) state (state.finished side env client) := by
  refine ⟨_, rfl, ?_⟩
  intro event member
  rcases List.mem_cons.mp member with same | command
  · exact Or.inl same
  · obtain ⟨command, -, same⟩ := List.mem_map.mp command
    exact Or.inr ⟨command, same.symm⟩

theorem finished_local (env : FinishEnv) (client : RpcClient) (state : CallState) :
    Extends Event.Local state (state.finished .rcvClient env client) := by
  refine (finished_extends env client state .rcvClient).weaken ?_
  rintro event (rfl | ⟨command, rfl⟩)
  · rfl
  · trivial

theorem closeLocal_ends (env : FinishEnv) (state : CallState) :
    Ends (fun _ after => (∃ client, state.channel.rcvClient = .live client ∧ client.Closable env) ∧
        Frame state after ∧ after.channel.client = state.channel.client ∧
        Extends Event.Local state after)
      (fun abort after => (∃ fault, abort = .fault fault) ∧ Frame state after ∧
        after.channel.client = state.channel.client ∧ Extends Event.Local state after ∧
        ¬ ∃ client, state.channel.rcvClient = .live client ∧ client.Closable env)
      ((do finishClient .rcvClient env; deleteClient .rcvClient : CallM Unit) state) := by
  cases found : state.channel.rcvClient with
  | null | dangling =>
    have absent : ∀ client, state.channel.handle .rcvClient ≠ .live client := by
      simp [Channel.handle, found]
    obtain ⟨fault, failed⟩ := finishClient_notLive env absent
    rw [run_bind, failed]
    exact ⟨⟨_, rfl⟩, Frame.refl state, rfl, Extends.refl _ _, by simp⟩
  | live client =>
    have held : state.channel.handle .rcvClient = .live client := found
    rw [run_bind]
    by_cases ready : client.CanFinish
    · rw [finishClient_open held ready]
      have later : (state.finished .rcvClient env client).channel.handle .rcvClient =
          .live (client.finished env) := rfl
      have grown := finished_local env client state
      cases joined : (client.finished env).recvThread with
      | false =>
        simp only [deleteClient_joined later joined]
        refine ⟨⟨client, rfl, ready, joined⟩, ⟨rfl, rfl⟩, rfl, grown.trans ⟨_, rfl, ?_⟩⟩
        intro event member
        cases List.mem_singleton.mp member
        rfl
      | true =>
        simp only [deleteClient_joinable later joined]
        refine ⟨⟨_, rfl⟩, ⟨rfl, rfl⟩, rfl, grown, ?_⟩
        rintro ⟨other, same, -, ended⟩
        cases same
        simp [joined] at ended
    · rw [finishClient_closed held ready]
      refine ⟨⟨_, rfl⟩, Frame.refl state, rfl, Extends.refl _ _, ?_⟩
      rintro ⟨other, same, opened, -⟩
      cases same
      exact ready opened

theorem destroyChannel_null (state : CallState) (env : DestroyEnv)
    (gone : state.channel.client = .null) :
    Ends (fun _ after => state.LocalClosable env.rcvFinish ∧ Frame state after ∧
        after.channel.client = .null ∧ Extends Event.Local state after)
      (fun abort after => (∃ fault, abort = .fault fault) ∧ Frame state after ∧
        after.channel.client = .null ∧ Extends Event.Local state after ∧
        ¬ state.LocalClosable env.rcvFinish)
      (destroyChannel env state) := by
  unfold destroyChannel
  simp only [run_bind, run_get, run_ite]
  cases mode : state.channel.useRedis with
  | true =>
    simp only [gone, not_true_eq_false, if_false, run_pure, ne_eq]
    refine ⟨?_, Frame.refl state, gone, Extends.refl _ _⟩
    intro offline
    simp [mode] at offline
  | false =>
    have ended := closeLocal_ends env.rcvFinish state
    rw [run_bind] at ended
    simp only [Bool.false_eq_true, not_false_eq_true, if_true]
    cases closing : finishClient .rcvClient env.rcvFinish state with
    | error abort after =>
      rw [closing] at ended
      obtain ⟨fault, frame, same, grown, stuck⟩ := ended
      exact ⟨fault, frame, same.trans gone, grown, fun closable => stuck (closable mode)⟩
    | ok _ middle =>
      rw [closing] at ended
      simp only
      cases deleting : deleteClient .rcvClient middle with
      | error abort after =>
        simp only [deleting] at ended
        obtain ⟨fault, frame, same, grown, stuck⟩ := ended
        exact ⟨fault, frame, same.trans gone, grown, fun closable => stuck (closable mode)⟩
      | ok _ after =>
        simp only [deleting] at ended
        obtain ⟨closable, frame, same, grown⟩ := ended
        have still : after.channel.client = .null := same.trans gone
        simp only [still, ne_eq, not_true_eq_false, if_false, run_pure]
        exact ⟨fun _ => closable, frame, still, grown⟩

/-- The old clients of a reconnect can be ended. -/
def Reconnectable (env : ReconnectEnv) (client : RpcClient) (state : CallState) : Prop :=
  client.Closable env.finish ∧ state.LocalClosable env.destroy.rcvFinish

/-- The events of ending the old `m_client`, besides those of the local one. -/
def OldClientEvent (env : ReconnectEnv) (client : RpcClient) (event : Event) : Prop :=
  event.Local ∨ event = .returned .client (client.finished env.finish) ∨
    event = .deleted .client (client.finished env.finish).getContinueStatus.2

/-- The old `m_client` has been ended. -/
structure Retired (env : ReconnectEnv) (client : RpcClient) (before after : CallState) : Prop where
  frame : Frame before after
  gone : after.channel.client = .null
  trace : ∃ events, after.trace = before.trace ++
    (.returned .client (client.finished env.finish) ::
      ((client.finished env.finish).reported before.channel.ref env.finish).map Event.command ++
      .deleted .client (client.finished env.finish).getContinueStatus.2 :: events) ∧
    ∀ event ∈ events, event.Local

/-- The old `m_client` was being ended when undefined behaviour struck. -/
structure HalfRetired (env : ReconnectEnv) (client : RpcClient) (before after : CallState) :
    Prop where
  frame : Frame before after
  holder : after.channel.client = .null ∨ after.channel.client = .live client ∨
    after.channel.client = .live (client.finished env.finish).getContinueStatus.2
  trace : Extends (OldClientEvent env client) before after

theorem finished_oldClient (env : ReconnectEnv) (client : RpcClient) (state : CallState) :
    Extends (OldClientEvent env client) state (state.finished .client env.finish client) := by
  refine (finished_extends env.finish client state .client).weaken ?_
  rintro event (same | ⟨command, rfl⟩)
  · exact Or.inr (Or.inl same)
  · exact Or.inl trivial

/-- The old client has given its status away. -/
def CallState.handedOver (env : FinishEnv) (client : RpcClient) (state : CallState) : CallState :=
  (state.finished .client env client).putBack .client
    ⟨(client.finished env).getContinueStatus.2, state.str⟩

/-- The old client is deleted and its pointer set to null. -/
def CallState.emptied (env : FinishEnv) (client : RpcClient) (state : CallState) : CallState :=
  (((state.handedOver env client).record (.deleted .client
    (client.finished env).getContinueStatus.2)).setHandle .client .dangling).setHandle .client .null

theorem finished_getContinueStatus (env : FinishEnv) (client : RpcClient) (state : CallState) :
    withClient .client getContinueStatus (state.finished .client env client) =
      .ok (client.finished env).getContinueStatus.1 (state.handedOver env client) :=
  rfl

theorem handedOver_client (env : FinishEnv) (client : RpcClient) (state : CallState) :
    (state.handedOver env client).channel.handle .client =
      .live (client.finished env).getContinueStatus.2 :=
  rfl

theorem emptied_channel (env : FinishEnv) (client : RpcClient) (state : CallState) :
    (state.emptied env client).channel = { state.channel with client := .null } := by
  simp only [CallState.emptied, CallState.handedOver, CallState.finished, CallState.setHandle,
    CallState.record, CallState.putBack, Channel.setHandle]

theorem emptied_frame (env : FinishEnv) (client : RpcClient) (state : CallState) :
    Frame state (state.emptied env client) := by
  constructor
  · simp only [CallState.emptied, CallState.handedOver, CallState.setHandle, CallState.record,
      CallState.putBack]
  · rw [emptied_channel]

theorem emptied_localClosable (env : FinishEnv) (client : RpcClient) (state : CallState)
    (close : FinishEnv) :
    (state.emptied env client).LocalClosable close ↔ state.LocalClosable close := by
  unfold CallState.LocalClosable
  rw [emptied_channel]

theorem RpcClient.getContinueStatus_recvThread (client : RpcClient) :
    client.getContinueStatus.2.recvThread = client.recvThread := by
  unfold RpcClient.getContinueStatus
  split <;> rfl

theorem retire_closable {state : CallState} (env : ReconnectEnv)
    (found : state.channel.client = .live client) (closable : client.Closable env.finish) :
    retire env state =
      match destroyChannel env.destroy (state.emptied env.finish client) with
      | .ok _ after => .ok (client.finished env.finish).getContinueStatus.1 after
      | .error abort after => .error abort after := by
  have held : state.channel.handle .client = .live client := found
  have joined := (client.finished env.finish).getContinueStatus_recvThread.trans closable.2
  unfold retire
  simp only [run_bind, finishClient_open held closable.1, finished_getContinueStatus,
    deleteClient_joined (handedOver_client env.finish client state) joined, run_modify, run_pure,
    CallState.emptied]
  cases destroyChannel env.destroy _ <;> rfl

theorem retire_ends {state : CallState} (env : ReconnectEnv) (found : state.channel.client = .live client) :
    Ends (fun tup after => Reconnectable env client state ∧
        tup = (client.finished env.finish).getContinueStatus.1 ∧ Retired env client state after)
      (fun abort after => (∃ fault, abort = .fault fault) ∧ HalfRetired env client state after ∧
        ¬ Reconnectable env client state)
      (retire env state) := by
  have held : state.channel.handle .client = .live client := found
  by_cases closable : client.Closable env.finish
  · rw [retire_closable env found closable]
    have frame : Frame state (state.emptied env.finish client) := emptied_frame env.finish client state
    have grown : Extends (OldClientEvent env client) state (state.emptied env.finish client) := by
      refine (finished_oldClient env client state).trans
        ⟨[.deleted .client (client.finished env.finish).getContinueStatus.2], rfl, ?_⟩
      intro event member
      cases List.mem_singleton.mp member
      exact Or.inr (Or.inr rfl)
    have ended := destroyChannel_null (state.emptied env.finish client) env.destroy
      (by rw [emptied_channel])
    rw [emptied_localClosable] at ended
    cases result : destroyChannel env.destroy (state.emptied env.finish client) with
    | error abort after =>
      rw [result] at ended
      obtain ⟨fault, frame', still, more, stuck⟩ := ended
      exact ⟨fault, ⟨frame.trans frame', Or.inl still,
        grown.trans (more.weaken fun _ off => Or.inl off)⟩, fun able => stuck able.2⟩
    | ok _ after =>
      rw [result] at ended
      obtain ⟨closableLocal, frame', gone, events, extended, isLocal⟩ := ended
      refine ⟨⟨closable, closableLocal⟩, rfl, frame.trans frame', gone, events, ?_, isLocal⟩
      rw [extended]
      simp [CallState.emptied, CallState.handedOver, CallState.setHandle, CallState.record,
        CallState.putBack, CallState.finished]
  · have stuck : ¬ Reconnectable env client state := fun able => closable able.1
    unfold retire
    rw [run_bind]
    by_cases ready : client.CanFinish
    · have joinable : (client.finished env.finish).getContinueStatus.2.recvThread = true := by
        rw [RpcClient.getContinueStatus_recvThread]
        cases joined : (client.finished env.finish).recvThread with
        | true => rfl
        | false => exact absurd ⟨ready, joined⟩ closable
      simp only [run_bind, finishClient_open held ready, finished_getContinueStatus,
        deleteClient_joinable (handedOver_client env.finish client state) joinable]
      exact ⟨⟨_, rfl⟩, ⟨⟨rfl, rfl⟩, Or.inr (Or.inr rfl), finished_oldClient env client state⟩, stuck⟩
    · rw [finishClient_closed held ready]
      exact ⟨⟨_, rfl⟩, ⟨Frame.refl state, Or.inr (Or.inl found), Extends.refl _ _⟩, stuck⟩

/-- The result of `set_continue_status` on the client a reconnect makes. -/
def handOver (env : ReconnectEnv) (client : RpcClient) (state : CallState) : Bool × RpcClient :=
  state.channel.newClient.setContinueStatus (client.finished env.finish).getContinueStatus.1
    env.resend

/-- A completed reconnect. -/
structure Reconnected (env : ReconnectEnv) (client : RpcClient) (before : CallState) (ret : Bool)
    (after : CallState) : Prop where
  able : Reconnectable env client before
  connected : env.connected = true
  frame : Frame before after
  ret : ret = (handOver env client before).1
  live : after.channel.client = .live (handOver env client before).2
  trace : ∃ events, after.trace = before.trace ++
    (.returned .client (client.finished env.finish) ::
      ((client.finished env.finish).reported before.channel.ref env.finish).map Event.command ++
      .deleted .client (client.finished env.finish).getContinueStatus.2 :: events) ++
      [.returned .client (handOver env client before).2] ∧
    ∀ event ∈ events, event.Local

theorem Reconnected.events {flag : Bool} (done : Reconnected env client before flag after) :
    Extends (fun event => OldClientEvent env client event ∨
      event = .returned .client (handOver env client before).2) before after := by
  obtain ⟨-, -, -, -, -, more, grown, isLocal⟩ := done
  refine ⟨_, grown.trans (List.append_assoc ..), ?_⟩
  intro event member
  simp only [List.mem_append, List.mem_cons, List.mem_map, List.not_mem_nil, or_false] at member
  rcases member with ((first | ⟨command, -, rfl⟩) | ended | inside) | last
  · exact Or.inl (Or.inr (Or.inl first))
  · exact Or.inl (Or.inl trivial)
  · exact Or.inl (Or.inr (Or.inr ended))
  · exact Or.inl (Or.inl (isLocal event inside))
  · exact Or.inr last

/-- A reconnect left by an exception or by undefined behaviour. -/
inductive ReconnectFailed (env : ReconnectEnv) (client : RpcClient) (before after : CallState) :
    Abort → Prop where
  | fault (stuck : ¬ Reconnectable env client before) (half : HalfRetired env client before after) :
    ReconnectFailed env client before after (.fault fault)
  | refused (able : Reconnectable env client before) (disconnected : env.connected = false)
      (frame : Frame before after) (gone : after.channel.client = .null) :
    ReconnectFailed env client before after
      (.thrown (.connectServer before.channel.serverAddress))

theorem onClient_setContinueStatus {state : CallState} (tup : ContinueStatus)
    (results : Nat → Bool) (found : state.channel.client = .live client) :
    onClient .client (setContinueStatus tup results) state =
      .ok (client.setContinueStatus tup results).1
        ((state.setHandle .client (.live (client.setContinueStatus tup results).2)).record
          (.returned .client (client.setContinueStatus tup results).2)) := by
  have held : state.channel.handle .client = .live client := found
  rw [onClient_live _ held]
  rfl

theorem createChannel_connected (state : CallState) :
    Ends (fun _ after => Frame state after ∧ after.trace = state.trace ∧
        after.channel.client = .live state.channel.newClient) (fun _ _ => False)
      (createChannel true state) := by
  unfold createChannel
  simp only [run_bind, run_get, run_ite, run_pure, run_modify, not_true_eq_false, if_false]
  split
  · exact ⟨⟨rfl, rfl⟩, rfl, rfl⟩
  · exact ⟨⟨rfl, rfl⟩, rfl, rfl⟩

theorem createChannel_refused {state : CallState} :
    createChannel false state = .error (.thrown (.connectServer state.channel.serverAddress)) state :=
  rfl

theorem reconnect_ends {state : CallState} (env : ReconnectEnv)
    (found : state.channel.client = .live client) :
    Ends (Reconnected env client state)
      (fun abort after => ReconnectFailed env client state after abort) (reconnect env state) := by
  have retired := retire_ends env found
  unfold reconnect
  rw [run_bind]
  cases result : retire env state with
  | error abort after =>
    rw [result] at retired
    obtain ⟨⟨fault, rfl⟩, half, stuck⟩ := retired
    exact .fault stuck half
  | ok tup middle =>
    rw [result] at retired
    obtain ⟨able, rfl, frame, gone, events, extended, isLocal⟩ := retired
    simp only [run_bind]
    cases answer : env.connected with
    | false =>
      rw [createChannel_refused]
      have same : middle.channel.serverAddress = state.channel.serverAddress := by
        rw [frame.channel]
      rw [same]
      exact .refused able answer frame gone
    | true =>
      have created := createChannel_connected middle
      cases made : createChannel true middle with
      | error abort after =>
        rw [made] at created
        exact created.elim
      | ok _ final =>
        rw [made] at created
        obtain ⟨frame', sameTrace, live⟩ := created
        simp only [onClient_setContinueStatus _ _ live, frame.newClient]
        refine ⟨able, answer, ?_, rfl, rfl, events, ?_, isLocal⟩
        · exact (frame.trans frame').trans ((Frame.setHandle _ _ _).trans (Frame.record _ _))
        · simp only [CallState.record, CallState.setHandle, sameTrace, extended]
          rfl

theorem reconnect_notLive (env : ReconnectEnv) (state : CallState)
    (missing : ∀ client, state.channel.client ≠ .live client) :
    ∃ fault, reconnect env state = .error (.fault fault) state := by
  have absent : ∀ client, state.channel.handle .client ≠ .live client := missing
  obtain ⟨fault, failed⟩ := finishClient_notLive env.finish absent
  refine ⟨fault, ?_⟩
  unfold reconnect retire
  simp only [run_bind, failed]

/-- A reconnect has no undefined behaviour here. -/
def CanReconnect (env : ReconnectEnv) (state : CallState) : Prop :=
  ∃ client, state.channel.client = .live client ∧ Reconnectable env client state

theorem reconnect_ok (done : reconnect env state = .ok ret after) :
    ∃ client, state.channel.client = .live client ∧ Reconnected env client state ret after := by
  cases found : state.channel.client with
  | live client =>
    have ended := reconnect_ends env found
    rw [done] at ended
    exact ⟨client, rfl, ended⟩
  | null | dangling =>
    obtain ⟨fault, failed⟩ := reconnect_notLive env state (by simp [found])
    rw [done] at failed
    cases failed

theorem reconnect_error (failed : reconnect env state = .error abort after) :
    Frame state after ∧
      ((∃ fault, abort = .fault fault) ∧ ¬ CanReconnect env state ∨
        abort = .thrown (.connectServer state.channel.serverAddress) ∧
          CanReconnect env state ∧ env.connected = false ∧ after.channel.client = .null) := by
  cases found : state.channel.client with
  | live client =>
    have ended := reconnect_ends env found
    rw [failed] at ended
    cases ended with
    | fault stuck half =>
      refine ⟨half.frame, Or.inl ⟨⟨_, rfl⟩, ?_⟩⟩
      rintro ⟨other, live, able⟩
      rw [found] at live
      cases live
      exact stuck able
    | refused able disconnected frame gone =>
      exact ⟨frame, Or.inr ⟨rfl, ⟨client, found, able⟩, disconnected, gone⟩⟩
  | null | dangling =>
    obtain ⟨fault, stuck⟩ := reconnect_notLive env state (by simp [found])
    rw [failed] at stuck
    cases stuck
    refine ⟨Frame.refl _, Or.inl ⟨⟨_, rfl⟩, ?_⟩⟩
    rintro ⟨other, live, -⟩
    simp [found] at live

section

variable (attempt : Nat → CallM (Option Bool)) (envs : Nat → ReconnectEnv) (start : CallState)

/-- `count` rounds of a retry loop were refused and reconnected. -/
abbrev RefusedRounds : Nat → Bool → CallState → Prop :=
  Lib.Retry.Refused attempt (fun i => reconnect (envs i)) false start

/-- Some round has undefined behaviour, in its attempt or in ending the old client. -/
def Crashes : Prop :=
  ∃ k < maxRetry, ∃ last before, RefusedRounds attempt envs start k last before ∧
    ((∃ fault after, attempt k before = .error (.fault fault) after) ∨
      ∃ middle, attempt k before = .ok none middle ∧ ¬ CanReconnect (envs k) middle)

/-- Every attempt is refused and the last `set_continue_status` returns true. -/
def Exhausts : Prop :=
  ∃ final, RefusedRounds attempt envs start maxRetry true final

end

theorem Crashes.retry_fault (crashes : Crashes attempt envs start) :
    ∃ fault after, Lib.Retry.retry attempt (fun i => reconnect (envs i)) 0 maxRetry false start =
      .error (.fault fault) after := by
  obtain ⟨k, inside, last, before, reached, ⟨fault, after, failed⟩ | ⟨middle, tried, unable⟩⟩ :=
    crashes
  · exact ⟨fault, after, reached.retry_attempt_error inside failed⟩
  · cases repaired : reconnect (envs k) middle with
    | ok ret after =>
      obtain ⟨client, live, done⟩ := reconnect_ok repaired
      exact absurd ⟨client, live, done.able⟩ unable
    | error abort after =>
      obtain ⟨-, ⟨⟨fault, rfl⟩, -⟩ | ⟨-, able, -⟩⟩ := reconnect_error repaired
      · exact ⟨fault, after, reached.retry_repair_error inside tried repaired⟩
      · exact absurd able unable

theorem realSend_eq (rounds : Nat → SendRound) (start : CallState) :
    realSend rounds start =
      match Lib.Retry.retry (sendAttempt rounds) (fun i => reconnect (rounds i).reconnect) 0 maxRetry
        false start with
      | .ok ending after =>
        if ending.value then
          .ok ⟨⟩ { after with channel := { after.channel with
            stats := after.channel.stats.statisticsSend (UInt64.ofNat start.str.length) } }
        else .error (.thrown .sendData) after
      | .error abort after => .error abort after := by
  unfold realSend
  simp only [run_bind, run_get]
  cases Lib.Retry.retry (sendAttempt rounds) (fun i => reconnect (rounds i).reconnect) 0 maxRetry
    false start with
  | error abort after => rfl
  | ok ending after =>
    simp only
    cases ending.value <;> rfl

theorem realRecv_redis (pulls : List RecvEnv) (rounds : Nat → RecvRound) (start : CallState)
    (redis : start.channel.useRedis = true) :
    realRecv pulls rounds start =
      match Lib.Retry.retry (recvAttempt rounds) (fun i => reconnect (rounds i).reconnect) 0 maxRetry
        false start with
      | .ok ending after =>
        if ending.value then
          .ok ⟨⟩ { after with channel := { after.channel with
            stats := after.channel.stats.statisticsRecv (UInt64.ofNat after.str.length) } }
        else .error (.thrown .recvData) after
      | .error abort after => .error abort after := by
  unfold realRecv
  simp only [run_bind, run_get, redis, not_true_eq_false, if_false, run_ite]
  cases Lib.Retry.retry (recvAttempt rounds) (fun i => reconnect (rounds i).reconnect) 0 maxRetry
    false start with
  | error abort after => rfl
  | ok ending after =>
    simp only
    cases ending.value <;> rfl

theorem flush_eq (rounds : Nat → FlushRound) (start : CallState) :
    flush rounds start =
      match Lib.Retry.retry (flushAttempt rounds) (fun i => reconnect (rounds i).reconnect) 0 maxRetry
        false start with
      | .ok (.stopped flag) after => .ok flag after
      | .ok (.exhausted _) after => .ok true after
      | .error abort after => .error abort after := by
  unfold flush
  simp only [run_bind]
  cases Lib.Retry.retry (flushAttempt rounds) (fun i => reconnect (rounds i).reconnect) 0 maxRetry
    false start with
  | error abort after => rfl
  | ok ending after => cases ending <;> rfl

/-- Rounds that bring the channel back to where it was are refused any number of times. -/
theorem refusedRounds_repeat {attempt : Nat → CallM (Option Bool)} {envs : Nat → ReconnectEnv}
    {channel : Channel} {str : Bytes}
    (turn : ∀ i trace, ∃ middle trace', attempt i ⟨channel, str, trace⟩ = .ok none middle ∧
      reconnect (envs i) middle = .ok true ⟨channel, str, trace'⟩) (n : Nat) :
    ∃ trace, RefusedRounds attempt envs ⟨channel, str, []⟩ (n + 1) true ⟨channel, str, trace⟩ := by
  induction n with
  | zero =>
    obtain ⟨middle, trace, tried, repaired⟩ := turn 0 []
    exact ⟨trace, .round .zero tried repaired⟩
  | succ n ih =>
    obtain ⟨trace, reached⟩ := ih
    obtain ⟨middle, trace', tried, repaired⟩ := turn (n + 1) trace
    exact ⟨trace', .round reached tried repaired⟩

/-- A v2 channel right after a reconnect that has written the unacknowledged packets again. -/
def Channel.sample (queue : List Packet) : Channel where
  fromParty := 1
  toParty := 2
  channelId := "task"
  serverAddress := "server"
  useRedis := true
  metaMap := []
  redisTimeoutEnv := none
  stats := Statistics.zero
  client := .live { RpcClient.init 1 2 true none with
    useRpcVersion := ServiceVersion.v2.code
    rwSender := some ⟨queue, 0, 0⟩
    seq := queue.length
    notackQueue := queue
    recvThread := true }
  rcvClient := .dangling

/-- One packet that was never acknowledged. -/
def lostPacket : Packet where
  header := ⟨"task", "1", "2", .tensor, 0⟩
  body := [7]

/-- A reconnect in which everything works and no ack arrives. -/
def quietReconnect : ReconnectEnv where
  finish := { thread := ⟨true, 0, false⟩, lastAcks := 0, redisError := none }
  destroy := ⟨⟨AckRun.none, 0, none⟩, ⟨AckRun.none, 0, none⟩⟩
  connected := true
  resend := fun _ => true

end GaiaNet.Grpc
