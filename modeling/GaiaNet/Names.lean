import GaiaNet.Grpc.Client
import GaiaNet.Lib.Decimal
import GaiaNet.Mem.Lifecycle

/-! Names made of a task id and two parties: those of the shared memory and of its lock
files, and the usage key. -/

namespace GaiaNet

open Lib.Decimal Lib.Directory Lib.Transition Mem

/-- What an end of a channel is constructed with, its own party first. -/
structure ChannelEnd where
  fromParty : UInt32
  toParty : UInt32
  taskid : String
  deriving DecidableEq, Repr

/-- `lock_file` of `get_file_lock` and `delete_file_lock`. -/
def lockFile (tmpPath key : String) : String := tmpPath ++ "/" ++ key ++ ".lck"

theorem lockFile_injective (tmpPath : String) : Function.Injective (lockFile tmpPath) := by
  intro first second same
  have lists := congrArg String.toList same
  simp only [lockFile, String.toList_append, List.append_assoc, List.append_cancel_left_eq,
    List.append_cancel_right_eq] at lists
  exact String.toList_inj.mp lists

theorem plain_decimal (party : UInt32) : Plain (Grpc.decimal party) := by
  intro char member null
  have digits : (Grpc.decimal party).toList = Nat.toDigits 10 party.toNat := by
    simp [Grpc.decimal]
  rw [digits] at member
  have range := digits_toDigits party.toNat char member
  rw [show char = Char.ofNat 0 from Char.toNat_inj.mp null] at range
  cases range

theorem plain_lockFile (path : Plain tmpPath) (name : Plain key) : Plain (lockFile tmpPath key) :=
  ((path.append (by decide)).append name).append (by decide)

namespace ChannelEnd

def peer (channel : ChannelEnd) : ChannelEnd where
  fromParty := channel.toParty
  toParty := channel.fromParty
  taskid := channel.taskid

/-- `send_key` and `recv_key`, as the constructor, the destructor and `attach` compute them. -/
def key (channel : ChannelEnd) : Ring → String
  | .send => getShmKey channel.fromParty channel.toParty channel.taskid
  | .recv => getShmKey channel.toParty channel.fromParty channel.taskid

def usageKey (channel : ChannelEnd) : String :=
  Grpc.usageKey channel.taskid channel.fromParty channel.toParty

/-- The name of a ring as `shm_open` and `shm_unlink` read it. -/
def shmName (channel : ChannelEnd) (ring : Ring) : String := cString (channel.key ring)

/-- An object found under a name of the one channel is at no other time found under a name of
the other, whatever names come and go in between. -/
def NeverShares (first second : ChannelEnd) : Prop :=
  ∀ ring other (before after : Directory String) object, Reaches Directory.change before after →
    before.entry (first.shmName ring) = some object →
      after.entry (second.shmName other) ≠ some object

/-- A label, the task id and the two parties, each after an underscore. -/
def labelled (label : String) (channel : ChannelEnd) : String :=
  label ++ channel.taskid ++ "_" ++ Grpc.decimal channel.fromParty ++ "_" ++
    Grpc.decimal channel.toParty

theorem toList_labelled (label : String) (channel : ChannelEnd) :
    (channel.labelled label).toList =
      label.toList ++ ((channel.taskid.toList ++ '_' :: Nat.toDigits 10 channel.fromParty.toNat) ++
        '_' :: Nat.toDigits 10 channel.toParty.toNat) := by
  simp [labelled, Grpc.decimal]

/-- The parties are the digits after the last two underscores, whatever the task id contains. -/
theorem labelled_injective (label : String) : Function.Injective (labelled label) := by
  intro first second same
  have lists := congrArg String.toList same
  rw [toList_labelled, toList_labelled, List.append_cancel_left_eq] at lists
  have underscore : '_'.isDigit = false := by decide
  obtain ⟨front, toDigits⟩ := (digits_toDigits first.toParty.toNat).separated_last
    (digits_toDigits second.toParty.toNat) underscore lists
  obtain ⟨task, fromDigits⟩ := (digits_toDigits first.fromParty.toNat).separated_last
    (digits_toDigits second.fromParty.toNat) underscore front
  have party {one other : UInt32} (digits : Nat.toDigits 10 one.toNat = Nat.toDigits 10 other.toNat) :
      one = other := by
    have values := congrArg value digits
    rw [value_toDigits, value_toDigits] at values
    exact UInt32.toNat_inj.mp values
  cases first
  cases second
  rw [mk.injEq]
  exact ⟨party fromDigits, party toDigits, String.toList_inj.mp task⟩

theorem key_send (channel : ChannelEnd) : channel.key .send = channel.labelled "MC" := rfl

theorem key_recv (channel : ChannelEnd) : channel.key .recv = channel.peer.labelled "MC" := rfl

/-- Both names of a channel carry its task id. -/
theorem key_labelled (channel : ChannelEnd) (ring : Ring) :
    ∃ place : ChannelEnd, place.taskid = channel.taskid ∧ channel.key ring = place.labelled "MC" := by
  cases ring with
  | send => exact ⟨channel, rfl, channel.key_send⟩
  | recv => exact ⟨channel.peer, rfl, channel.key_recv⟩

theorem key_task {first second : ChannelEnd} {ring other : Ring}
    (same : first.key ring = second.key other) : first.taskid = second.taskid := by
  obtain ⟨one, oneTask, oneKey⟩ := first.key_labelled ring
  obtain ⟨two, twoTask, twoKey⟩ := second.key_labelled other
  have places : one = two := labelled_injective "MC" (oneKey.symm.trans (same.trans twoKey))
  rw [← oneTask, places, twoTask]

theorem plain_labelled (channel : ChannelEnd) (plain : Plain channel.taskid) (label : Plain name) :
    Plain (channel.labelled name) :=
  ((((label.append plain).append (by decide)).append (plain_decimal _)).append (by decide)).append
    (plain_decimal _)

theorem plain_key (channel : ChannelEnd) (plain : Plain channel.taskid) (ring : Ring) :
    Plain (channel.key ring) := by
  obtain ⟨place, same, key⟩ := channel.key_labelled ring
  rw [key]
  exact place.plain_labelled (same ▸ plain) (by decide)

/-- The system calls read the whole name of a ring. -/
theorem shmName_plain (channel : ChannelEnd) (plain : Plain channel.taskid) (ring : Ring) :
    channel.shmName ring = channel.key ring :=
  cString_plain (channel.plain_key plain ring)

/-- The creator of a session and the party that attaches find its rings under the names that
`Setup.key` says. -/
theorem shmName_setup (setup : Setup) (ring : Ring) :
    let creator : ChannelEnd := ⟨setup.fromParty, setup.toParty, setup.taskid⟩
    creator.shmName ring = setup.key ring ∧ creator.peer.shmName ring = setup.key ring.other := by
  intro creator
  rw [creator.shmName_plain setup.plain, creator.peer.shmName_plain setup.plain]
  cases ring <;> exact ⟨rfl, rfl⟩

end ChannelEnd

/-- Triples have names of their own, also as the system calls read them where the task ids have no
null character; then the two names of a channel differ, and channels of different tasks never meet
in a ring. The two ends of a channel agree on the names of any task. -/
theorem names_unambiguous :
    Function.Injective (fun triple : ChannelEnd =>
      getShmKey triple.fromParty triple.toParty triple.taskid) ∧
    (∀ tmpPath, Function.Injective fun triple : ChannelEnd =>
      lockFile tmpPath (getShmKey triple.fromParty triple.toParty triple.taskid)) ∧
    (∀ first second : ChannelEnd, Plain first.taskid → Plain second.taskid → first ≠ second →
      cString (getShmKey first.fromParty first.toParty first.taskid) ≠
        cString (getShmKey second.fromParty second.toParty second.taskid) ∧
      ∀ tmpPath, Plain tmpPath →
        cString (lockFile tmpPath (getShmKey first.fromParty first.toParty first.taskid)) ≠
          cString (lockFile tmpPath (getShmKey second.fromParty second.toParty second.taskid))) ∧
    (∀ channel : ChannelEnd, channel.fromParty ≠ channel.toParty →
      channel.key .send ≠ channel.key .recv ∧
      (Plain channel.taskid → channel.shmName .send ≠ channel.shmName .recv)) ∧
    (∀ (channel : ChannelEnd) (ring : Ring), channel.peer.key ring = channel.key ring.other) ∧
    (∀ first second : ChannelEnd, Plain first.taskid → Plain second.taskid →
      first.taskid ≠ second.taskid → first.NeverShares second) ∧
    Function.Injective ChannelEnd.usageKey := by
  have names : Function.Injective (ChannelEnd.labelled "MC") := ChannelEnd.labelled_injective "MC"
  refine ⟨names, fun tmpPath => (lockFile_injective tmpPath).comp names, ?_, ?_, ?_, ?_,
    ChannelEnd.labelled_injective "net_usage_"⟩
  · intro first second firstPlain secondPlain different
    have one := first.plain_labelled firstPlain (show Plain "MC" by decide)
    have two := second.plain_labelled secondPlain (show Plain "MC" by decide)
    refine ⟨fun same => ?_, fun tmpPath path same => ?_⟩
    · change cString (first.labelled "MC") = cString (second.labelled "MC") at same
      rw [cString_plain one, cString_plain two] at same
      exact different (names same)
    · change cString (lockFile tmpPath (first.labelled "MC")) =
        cString (lockFile tmpPath (second.labelled "MC")) at same
      rw [cString_plain (plain_lockFile path one), cString_plain (plain_lockFile path two)] at same
      exact different (names (lockFile_injective tmpPath same))
  · intro channel different
    have apart : channel.key .send ≠ channel.key .recv := by
      intro same
      have swapped : channel = channel.peer := names same
      exact different (congrArg ChannelEnd.fromParty swapped)
    refine ⟨apart, fun plain => ?_⟩
    rw [channel.shmName_plain plain, channel.shmName_plain plain]
    exact apart
  · intro channel ring
    cases ring <;> rfl
  · intro first second firstPlain secondPlain different ring other before after object path found later
    rw [first.shmName_plain firstPlain] at found
    rw [second.shmName_plain secondPlain] at later
    exact different (ChannelEnd.key_task (Directory.one_name path found later))

theorem names_unambiguous_underscores :
    (⟨1, 12, "t_1"⟩ : ChannelEnd).shmName .send ≠ (⟨1, 12, "t_1"⟩ : ChannelEnd).shmName .recv ∧
      (⟨1, 12, "t_1"⟩ : ChannelEnd).NeverShares ⟨1, 12, "t"⟩ :=
  ⟨(names_unambiguous.2.2.2.1 _ (by decide)).2 (by decide),
    names_unambiguous.2.2.2.2.2.1 _ _ (by decide) (by decide) (by decide)⟩

/-- Both rings of both tasks are found under the one name "MCt". -/
theorem names_cut_off :
    (⟨1, 2, "t\x00a"⟩ : ChannelEnd).shmName .send = "MCt" ∧
      (⟨1, 2, "t\x00a"⟩ : ChannelEnd).shmName .recv = "MCt" ∧
      (⟨1, 2, "t\x00b"⟩ : ChannelEnd).shmName .send = "MCt" ∧
      ¬ (⟨1, 2, "t\x00a"⟩ : ChannelEnd).NeverShares ⟨1, 2, "t\x00b"⟩ := by
  have first : (⟨1, 2, "t\x00a"⟩ : ChannelEnd).shmName .send = "MCt" := by decide
  have second : (⟨1, 2, "t\x00b"⟩ : ChannelEnd).shmName .send = "MCt" := by decide
  refine ⟨first, by decide, second, fun never => ?_⟩
  have found : (Directory.empty.add "MCt").entry "MCt" = some 0 := add_entry _ _
  refine never .send .send (Directory.empty.add "MCt") (Directory.empty.add "MCt") 0 (.refl _ _) ?_ ?_
  · rwa [first]
  · rwa [second]

end GaiaNet
