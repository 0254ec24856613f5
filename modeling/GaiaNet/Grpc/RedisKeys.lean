import GaiaNet.Grpc.Calls
import GaiaNet.Lib.Decimal

/-! When two transfers share the Redis list that `Recv` pops from. -/

namespace GaiaNet.Grpc

open Lib.Hoare Lib.Decimal

/-- A sender, a receiver and a task: what a channel carries data for. -/
structure Route where
  sender : UInt32
  receiver : UInt32
  taskid : String
  deriving DecidableEq, Repr

/-- The list from which the receiver pops; its `m_to_partyid` is the sender. -/
def Route.key (route : Route) : String := redisKey route.sender route.receiver route.taskid

/-- In Redis mode `Recv` pops from the list of its route and no other. -/
theorem recv_redis (taskid : String) (withResend : Bool) (env : RecvEnv) (client : RpcClient)
    (content : Bytes) (redis : client.useRedis = true) :
    recv taskid withResend env ⟨client, content⟩ =
      recvRedis withResend 1 (env.polls (Route.key ⟨client.toPartyid, client.partyid, taskid⟩))
        ⟨client, content⟩ :=
  recv_eq_recvRedis taskid withResend env client content redis

def decimalWidth (party : UInt32) : Nat := (Nat.toDigits 10 party.toNat).length

/-- The number of digits before the task id of a key, and the number they denote. -/
def Route.width (route : Route) : Nat := decimalWidth route.sender + decimalWidth route.receiver

def Route.number (route : Route) : Nat :=
  route.sender.toNat * 10 ^ decimalWidth route.receiver + route.receiver.toNat

/-- The digits of `long` continue those of `short`, whose task id starts with the
further digits and goes on with the task id of `long`. -/
def Route.Continues (short long : Route) : Prop :=
  short.width ≤ long.width ∧
    short.number = long.number / 10 ^ (long.width - short.width) ∧
    short.taskid = String.ofList
      (fixed (long.width - short.width) (long.number % 10 ^ (long.width - short.width))) ++
        long.taskid

instance (short long : Route) : Decidable (short.Continues long) :=
  inferInstanceAs (Decidable (_ ∧ _ ∧ _))

def Route.digits (route : Route) : List Char :=
  Nat.toDigits 10 route.sender.toNat ++ Nat.toDigits 10 route.receiver.toNat

theorem Route.digits_digits (route : Route) : Digits route.digits :=
  (digits_toDigits _).append (digits_toDigits _)

theorem Route.length_digits (route : Route) : route.digits.length = route.width :=
  List.length_append

theorem Route.value_digits (route : Route) : value route.digits = route.number := by
  unfold Route.digits Route.number decimalWidth
  rw [value_append, value_toDigits, value_toDigits]

theorem Route.toList_key (route : Route) :
    route.key.toList = route.digits ++ route.taskid.toList := by
  simp [Route.key, redisKey, decimal, Route.digits]

theorem Route.continues_iff (short long : Route) :
    short.Continues long ↔ ∃ rest, long.digits = short.digits ++ rest ∧
      short.taskid.toList = rest ++ long.taskid.toList := by
  have split (rest : List Char) := short.digits_digits.append_iff long.digits_digits rest
  simp only [Route.length_digits, Route.value_digits] at split
  constructor
  · rintro ⟨fits, high, task⟩
    refine ⟨_, (split _).mpr ⟨fits, high, rfl⟩, ?_⟩
    rw [task]
    simp
  · rintro ⟨rest, continued, task⟩
    obtain ⟨fits, high, same⟩ := (split rest).mp continued
    refine ⟨fits, high, String.toList_inj.mp ?_⟩
    rw [task, same]
    simp

/-- Two routes share a list exactly when one continues the other. -/
theorem Route.key_eq_iff (first second : Route) :
    first.key = second.key ↔ first.Continues second ∨ second.Continues first := by
  rw [← String.toList_inj, Route.toList_key, Route.toList_key, List.append_eq_append_iff,
    Route.continues_iff, Route.continues_iff]

/-- Distinct routes have distinct lists exactly when neither continues the other. -/
theorem redis_keys_separate (first second : Route) :
    (first ≠ second → first.key ≠ second.key) ↔
      (first ≠ second → ¬ first.Continues second ∧ ¬ second.Continues first) := by
  rw [← not_or, ← Route.key_eq_iff]

example : Route.Continues ⟨1, 2, "3t"⟩ ⟨1, 23, "t"⟩ := by decide

/-- Parties 1 and 11 share a list with parties 11 and 1. -/
theorem redis_keys_collide :
    ¬ ∀ first second : Route, first ≠ second → first.key ≠ second.key := by
  intro separate
  exact separate ⟨1, 11, "t"⟩ ⟨11, 1, "t"⟩ (by decide) (by decide)

end GaiaNet.Grpc
