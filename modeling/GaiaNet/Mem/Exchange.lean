import GaiaNet.Mem.Streams

/-! Whole calls as steps: what two scripts can do when nothing smaller than a call is
seen, and that the ends of a pair can follow every such step. -/

namespace GaiaNet.Mem

open Lib Lib.Chunks Lib.Duplex Lib.Transition

/-- Whether a call is a receive that a message passes the assertion of. -/
def Call.accepts : Call → Bytes → Bool
  | .send _, _ => false
  | .recv _, _ => true
  | .recvInto buf, body => buf.length == body.length

/-- A `send` that fits into the segment as a whole, a `recv` of a message that is there,
and both calls at once. -/
inductive Deal where
  | deposit (side : Side)
  | collect (side : Side)
  | handOver (side : Side)

/-- The calls to come, the messages each end has sent and the other has not begun to
read, and the messages each end has received. -/
structure Exchange where
  script : Side → List Call
  backlog : Side → List Bytes
  received : Side → List Bytes

namespace Exchange

open Function

def start (script : Side → List Call) : Exchange := ⟨script, fun _ => [], fun _ => []⟩

def next (capacity : Nat) : Deal → Exchange → Option Exchange
  | .deposit side, exchange =>
    match exchange.script side with
    | .send body :: rest =>
      if (stream (exchange.backlog side)).length + (frame body).length ≤ capacity then
        some { exchange with
          script := update exchange.script side rest
          backlog := update exchange.backlog side (exchange.backlog side ++ [body]) }
      else none
    | _ => none
  | .collect side, exchange =>
    match exchange.script side, exchange.backlog side.other with
    | call :: rest, body :: more =>
      if call.accepts body then
        some {
          script := update exchange.script side rest
          backlog := update exchange.backlog side.other more
          received := update exchange.received side (exchange.received side ++ [body]) }
      else none
    | _, _ => none
  | .handOver side, exchange =>
    match exchange.script side, exchange.script side.other, exchange.backlog side with
    | .send body :: rest, call :: others, [] =>
      if call.accepts body then
        some { exchange with
          script := update (update exchange.script side rest) side.other others
          received := update exchange.received side.other (exchange.received side.other ++ [body]) }
      else none
    | _, _, _ => none

/-- What can happen in a step. -/
inductive Dealt (capacity : Nat) (exchange : Exchange) : Deal → Exchange → Prop where
  | deposit (side : Side) (body : Bytes) (rest : List Call)
      (calls : exchange.script side = .send body :: rest)
      (fits : (stream (exchange.backlog side)).length + (frame body).length ≤ capacity) :
      Dealt capacity exchange (.deposit side) { exchange with
        script := update exchange.script side rest
        backlog := update exchange.backlog side (exchange.backlog side ++ [body]) }
  | collect (side : Side) (call : Call) (rest : List Call) (body : Bytes) (more : List Bytes)
      (calls : exchange.script side = call :: rest)
      (stored : exchange.backlog side.other = body :: more) (accepts : call.accepts body = true) :
      Dealt capacity exchange (.collect side) {
        script := update exchange.script side rest
        backlog := update exchange.backlog side.other more
        received := update exchange.received side (exchange.received side ++ [body]) }
  | handOver (side : Side) (body : Bytes) (rest others : List Call) (call : Call)
      (calls : exchange.script side = .send body :: rest)
      (awaits : exchange.script side.other = call :: others)
      (empty : exchange.backlog side = []) (accepts : call.accepts body = true) :
      Dealt capacity exchange (.handOver side) { exchange with
        script := update (update exchange.script side rest) side.other others
        received := update exchange.received side.other (exchange.received side.other ++ [body]) }

theorem next_dealt {exchange after : Exchange} (moved : exchange.next capacity deal = some after) :
    Dealt capacity exchange deal after := by
  cases deal with
  | deposit side =>
    simp only [next] at moved
    split at moved
    · rename_i body rest calls
      split at moved
      · rename_i fits
        cases moved
        exact .deposit side body rest calls fits
      · cases moved
    · cases moved
  | collect side =>
    simp only [next] at moved
    split at moved
    · rename_i call rest body more calls stored
      split at moved
      · rename_i accepts
        cases moved
        exact .collect side call rest body more calls stored accepts
      · cases moved
    · cases moved
  | handOver side =>
    simp only [next] at moved
    split at moved
    · rename_i body rest call others calls awaits empty
      split at moved
      · rename_i accepts
        cases moved
        exact .handOver side body rest others call calls awaits empty accepts
      · cases moved
    · cases moved

theorem Dealt.next_eq {exchange after : Exchange} (dealt : Dealt capacity exchange deal after) :
    exchange.next capacity deal = some after := by
  cases dealt with
  | deposit side body rest calls fits => simp [next, calls, fits]
  | collect side call rest body more calls stored accepts => simp [next, calls, stored, accepts]
  | handOver side body rest others call calls awaits empty accepts =>
    simp [next, calls, awaits, empty, accepts]

/-- Everything an end receives if all goes well: received, stored, still to be sent. -/
def due (exchange : Exchange) (side : Side) : List Bytes :=
  exchange.received side ++ (exchange.backlog side.other ++ sent (exchange.script side.other))

theorem accepts_sent {call : Call} (accepts : call.accepts body = true) (rest : List Call) :
    sent (call :: rest) = sent rest := by
  cases call with
  | send other => simp [Call.accepts] at accepts
  | recv str => rfl
  | recvInto buf => rfl

/-- No step changes what is due. -/
theorem Dealt.due {exchange after : Exchange} (dealt : Dealt capacity exchange deal after)
    (any : Side) : after.due any = exchange.due any := by
  cases dealt with
  | deposit side body rest calls fits =>
    by_cases same : any.other = side
    · subst side
      simp [Exchange.due, calls]
    · simp [Exchange.due, update_of_ne same]
  | collect side call rest body more calls stored accepts =>
    by_cases same : any = side
    · subst side
      simp [Exchange.due, stored]
    · obtain rfl := Side.eq_other_of_ne (Ne.symm same)
      simp [Exchange.due, calls, accepts_sent accepts]
  | handOver side body rest others call calls awaits empty accepts =>
    by_cases same : any = side
    · subst side
      simp [Exchange.due, awaits, accepts_sent accepts]
    · obtain rfl := Side.eq_other_of_ne (Ne.symm same)
      simp [Exchange.due, calls, empty]

end Exchange

end GaiaNet.Mem
