import GaiaNet.Grpc.Calls
import GaiaNet.Grpc.Protocol

/-! What `Recv` makes of the elements a handler appends. -/

namespace GaiaNet.Grpc

open Lib.Hoare

/-- What a treated element adds to what the receiver has had. -/
def Verdict.contents : Verdict → List Bytes
  | .deliver content => [content]
  | _ => []

theorem bmod_nat {n : Nat} (fits : n < 2 ^ 31) : (n : Int).bmod (2 ^ 32) = n := by
  rw [Int.bmod_eq_of_le_mul_two] <;> omega

theorem addInt_one {n : Nat} (fits : n < 2 ^ 31) : addInt ((n : Int) - 1) 1 = n := by
  unfold addInt
  rw [Int.sub_add_cancel]
  exact bmod_nat fits

/-- The four bytes of an `int` are read back, whatever follows them. -/
theorem frameIndex_int {value : Int} (low : -2 ^ 31 ≤ value) (high : value < 2 ^ 31) (body : Bytes) :
    frameIndex (Lib.LittleEndian.encode 4 (value % 2 ^ 32).toNat ++ body) = some value := by
  have long : ¬ (Lib.LittleEndian.encode 4 (value % 2 ^ 32).toNat ++ body).length < 3 := by
    rw [List.length_append, Lib.LittleEndian.length_encode]
    omega
  have four : ((Lib.LittleEndian.encode 4 (value % 2 ^ 32).toNat ++ body) ++ [0]).take 4 =
      Lib.LittleEndian.encode 4 (value % 2 ^ 32).toNat := by
    rw [List.append_assoc, List.take_left' (Lib.LittleEndian.length_encode 4 _)]
  have whole : (value % 2 ^ 32).toNat % 256 ^ 4 = (value % 2 ^ 32).toNat := by
    omega
  have back : ((value % 2 ^ 32).toNat : Int).bmod (2 ^ 32) = value := by
    have same : ((value % 2 ^ 32).toNat : Int) = value % ((2 ^ 32 : Nat) : Int) := by omega
    rw [same, Int.emod_bmod, Int.bmod_eq_of_le_mul_two] <;> omega
  unfold frameIndex
  rw [if_neg long, four, Lib.LittleEndian.decode_encode, whole, back]

theorem frameIndex_encode (fits : n < 2 ^ 31) (body : Bytes) :
    frameIndex (Lib.LittleEndian.encode 4 n ++ body) = some (n : Int) := by
  have same : ((n : Int) % 2 ^ 32).toNat = n := by omega
  have low : -2 ^ 31 ≤ (n : Int) := by omega
  have high : (n : Int) < 2 ^ 31 := by omega
  have read := frameIndex_int low high body
  rwa [same] at read

/-- A receiver that has popped so many elements and waits for index `next`. -/
structure Expects (client : RpcClient) (popped next : Nat) : Prop where
  recvIdx : client.recvIdx = (next : Int) - 1
  version : client.useRedisDataVersion = if popped = 0 then .notInited else .v2

theorem redisFrame_nat {i : Nat} (packet : Packet) (first : Bool)
    (numbered : packet.header.seq = i) (fits : i < 2 ^ 31) :
    redisFrame first packet = (if first then dataVersionMagicString else []) ++
      (Lib.LittleEndian.encode 4 i ++ packet.body) := by
  have small : (packet.header.seq % 2 ^ 32).toNat = i := by
    rw [numbered]
    omega
  unfold redisFrame
  rw [small, List.append_assoc]

/-- The first element settles the version and loses the magic string. -/
theorem Expects.versioned (expects : Expects client popped next) (data : Bytes) :
    client.versioned ((if popped = 0 then dataVersionMagicString else []) ++ data) =
      ({ client with useRedisDataVersion := .v2 }, data) := by
  have version := expects.version
  unfold RpcClient.versioned
  by_cases first : popped = 0
  · rw [if_pos first] at version
    simp only [if_pos first, if_pos version]
    unfold initRedisDataVersion
    rw [List.take_left, if_pos rfl, List.drop_left]
  · rw [if_neg first] at version
    have set : client.useRedisDataVersion ≠ .notInited := by simp [version]
    rw [if_neg set, if_neg first, List.nil_append, ← version]

/-- A frame at or below the wanted index is delivered when it is the wanted one and
skipped otherwise. -/
theorem receiveFrame_packet {packet : Packet} {i : Nat} (content : Bytes) (expects : Expects client popped next)
    (numbered : packet.header.seq = i) (reached : i ≤ next) (fits : next < 2 ^ 31) :
    ∃ after, receiveFrame (redisFrame (popped = 0) packet) ⟨client, content⟩ =
        .ok (if i = next then .deliver packet.body else .repeated) ⟨after, content⟩ ∧
      Expects after (popped + 1) (if i = next then next + 1 else next) := by
  have small : i < 2 ^ 31 := Nat.lt_of_le_of_lt reached fits
  have index := frameIndex_encode small packet.body
  have notControl : ¬ ((Lib.LittleEndian.encode 4 i ++ packet.body).length = 4 ∧ (i : Int) < 0) := by
    omega
  have long : ¬ (Lib.LittleEndian.encode 4 i ++ packet.body).length < 4 := by
    simp
  have wanted : addInt client.recvIdx 1 = next := by
    rw [expects.recvIdx]
    exact addInt_one fits
  have body : (Lib.LittleEndian.encode 4 i ++ packet.body).drop 4 = packet.body :=
    List.drop_left' (Lib.LittleEndian.length_encode 4 i)
  rw [redisFrame_nat packet _ numbered small, receiveFrame_eq]
  simp only [decide_eq_true_eq, expects.versioned, ne_eq, not_true_eq_false, if_false, index,
    if_neg notControl, wanted, if_neg long, body]
  by_cases same : i = next
  · subst same
    refine ⟨{ client with useRedisDataVersion := .v2, recvIdx := i }, by simp, ?_⟩
    exact ⟨by simp, by simp⟩
  · have below : (i : Int) < next := by omega
    have other : ¬ (i : Int) = next := by omega
    refine ⟨{ client with useRedisDataVersion := .v2 }, ?_, ?_⟩
    · simp only [if_neg other, if_pos below, if_neg same]
    · rw [if_neg same]
      exact ⟨expects.recvIdx, by simp⟩

end GaiaNet.Grpc
