import GaiaNet.Lib.Duplex
import GaiaNet.Mem.Transfer

/-! Both directions of a `MemChannel` pair: each end makes the calls of a script of its
own, `send` into one ring and `recv` from the other. -/

namespace GaiaNet.Mem

open Lib Lib.Duplex Lib.Transition

/-- A call on a channel: the bytes of `send`, the string given to `recv(std::string&)`,
the memory given to `recv(void*, length)`. -/
inductive Call where
  | send (body : Bytes)
  | recv (str : Bytes)
  | recvInto (buf : RawString)

/-- Where an end stands. `header` is `recv(void*, length)` before its assertion,
`aborted` after a failed one. -/
inductive Running where
  | idle
  | sending (producer : Producer)
  | receiving (consumer : Consumer)
  | header (buf : RawString)
  | aborted (buf : RawString)

/-- One end: the calls not yet begun, the call running, and what the completed calls of
`recv` left in their arguments. -/
structure Endpoint where
  script : List Call
  running : Running
  returned : List RawString
  stats : Statistics

def Action.map (f : σ → τ) : Action σ → Action τ
  | .write buf len next => .write buf len (f next)
  | .read len next => .read len fun bytes => f (next bytes)
  | .local next => .local (f next)
  | .outside => .outside

/-- The first step of a call. -/
def Endpoint.begin (endpoint : Endpoint) (rest : List Call) : Call → Endpoint
  | .send body => { endpoint with
      script := rest
      running := .sending ⟨[body], .idle, endpoint.stats⟩ }
  | .recv str => { endpoint with
      script := rest
      running := .receiving ⟨[str], .idle, endpoint.returned, endpoint.stats⟩ }
  | .recvInto buf => { endpoint with script := rest, running := .header buf }

/-- `recv(void*, length)` once it has read the length: the assertion, then `recv_body`. -/
def Endpoint.assertLength (chunkSize : UInt32) (endpoint : Endpoint) (buf : RawString)
    (bytes : Bytes) : Endpoint :=
  if LittleEndian.decode bytes = buf.length then
    { endpoint with
      running := .receiving ⟨[], .chunks buf (ChunkLoop.start (UInt32.ofNat buf.length) chunkSize),
        endpoint.returned, endpoint.stats⟩ }
  else { endpoint with running := .aborted buf }

/-- The next step of an end whose chunk size is `m_buf_size`. -/
def Endpoint.action (chunkSize : UInt32) (endpoint : Endpoint) : Option (Action Endpoint) :=
  match endpoint.running with
  | .idle =>
    match endpoint.script with
    | [] => none
    | call :: rest => some (.local (endpoint.begin rest call))
  | .sending producer =>
    match producer.action chunkSize with
    | some action => some (action.map fun producer => { endpoint with running := .sending producer })
    | none => some (.local { endpoint with running := .idle, stats := producer.stats })
  | .receiving consumer =>
    match consumer.action chunkSize with
    | some action =>
      some (action.map fun consumer => { endpoint with running := .receiving consumer })
    | none => some (.local { endpoint with
        running := .idle
        returned := consumer.returned
        stats := consumer.stats })
  | .header buf => some (.read 4 (endpoint.assertLength chunkSize buf))
  | .aborted _ => none

/-- The segment an action uses: `m_recv_buf` for a read, else `m_send_buf`, named after
the end that sends into it. -/
def Action.ring (side : Side) : Action σ → Side
  | .read _ _ => side.other
  | _ => side

/-- Both ends and both segments. -/
structure Duplex where
  endpoint : Side → Endpoint
  ring : Side → SharedMemoryView

/-- One step of an end; each `read` and `write` is one step. -/
def Duplex.next (chunkSize : Side → UInt32) (side : Side) (duplex : Duplex) : Option Duplex := do
  let action ← (duplex.endpoint side).action (chunkSize side)
  let (view, endpoint) ← action.perform (duplex.ring (action.ring side))
  return {
    endpoint := Function.update duplex.endpoint side endpoint
    ring := Function.update duplex.ring (action.ring side) view }

/-- Two fresh segments of the creator's size and two ends that have made no call. -/
def Duplex.start (segment : Side → SharedMemoryView) (bufSize : UInt32)
    (script : Side → List Call) : Duplex where
  endpoint side := { script := script side, running := .idle, returned := [], stats := .zero }
  ring side := (segment side).init bufSize true

end GaiaNet.Mem
