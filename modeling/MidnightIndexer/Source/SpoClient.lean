import MidnightIndexer.Lib.Outcome

/-!
# The SPO client

spo-indexer/src/infra/spo_client.rs:219-267 (`get_first_epoch_num`, `get_current_epoch`),
269-322 (`get_spo_registrations`), 324-356 (`get_committee`), 451-476 (`get_epoch_duration`)
with the types of spo-indexer/src/domain and `remove_hex_prefix` of
spo-indexer/src/utils.rs.

What the node answers is an input: a request that fails or that cannot be decoded is
`none`, and for the committee the two are told apart, because the client treats them
differently. Arithmetic wraps as in a release build. Texts are lists of characters.
-/

namespace MidnightIndexer.Source.SpoIndexer

open Lib

abbrev Text := List Char

def removeHexPrefix : Text → Text
  | '0' :: 'x' :: rest => rest
  | text => text

/-- `SLOT_DURATION`, in milliseconds. -/
def slotDuration : UInt32 := 6000

structure SpoClient where
  epochDuration : UInt32
  slotsPerEpoch : UInt32
  deriving DecidableEq, Repr

/-- `get_epoch_duration` as `new` uses it. -/
def SpoClient.new (slotsPerEpoch : UInt32) : SpoClient :=
  ⟨slotDuration * slotsPerEpoch, slotsPerEpoch⟩

/-- The sidechain part of `sidechain_getStatus`. -/
structure ChainInfo where
  epoch : UInt32
  nextEpochTimestamp : Int64
  deriving DecidableEq, Repr

structure Epoch where
  epochNo : UInt32
  startsAt : Int64
  endsAt : Int64
  deriving DecidableEq, Repr

def asI64 (n : UInt32) : Int64 := n.toUInt64.toInt64

def SpoClient.getCurrentEpoch (client : SpoClient) (status : ChainInfo) : Epoch :=
  { epochNo := status.epoch
    startsAt := status.nextEpochTimestamp - asI64 client.epochDuration
    endsAt := status.nextEpochTimestamp }

inductive SpoError where
  | rpcCall | unexpectedResponse | storage | panic
  deriving DecidableEq, Repr

/-- Divides by the epoch duration, which panics if it is zero. -/
def SpoClient.getFirstEpochNum (client : SpoClient) (status : ChainInfo)
    (blockTimestamp : UInt64) : Except SpoError UInt32 :=
  let currentEpoch := client.getCurrentEpoch status
  if client.epochDuration = 0 then .error .panic
  else
    let numEpochs := (currentEpoch.endsAt.toUInt64 - blockTimestamp) /
      client.epochDuration.toUInt64
    .ok (currentEpoch.epochNo - numEpochs.toUInt32)

/-- The columns of a registration that are used. -/
structure CandidateRegistration where
  sidechainPubKey : Text
  mainchainPubKey : Text
  aura : Text
  isValid : Bool
  deriving DecidableEq, Repr

def CandidateRegistration.clean (registration : CandidateRegistration) : CandidateRegistration :=
  { registration with
    sidechainPubKey := removeHexPrefix registration.sidechainPubKey
    mainchainPubKey := removeHexPrefix registration.mainchainPubKey
    aura := removeHexPrefix registration.aura }

/-- Insert into a map that is listed in the order of its iteration. -/
def insertEntry {α : Type} (entries : List (Text × α)) (key : Text) (value : α) :
    List (Text × α) :=
  if entries.any fun entry => entry.1 = key then
    entries.map fun entry => if entry.1 = key then (key, value) else entry
  else entries ++ [(key, value)]

/-- `get_spo_registrations`: the values of the map of cleaned registrations. The order of
the response stands for the order in which the maps are iterated. -/
def getSpoRegistrations (response : List (Text × List CandidateRegistration)) :
    List CandidateRegistration :=
  (response.foldl (fun entries entry => insertEntry entries (removeHexPrefix entry.1)
    (entry.2.map CandidateRegistration.clean)) []).flatMap Prod.snd

structure EpochCommitteeResponse where
  sidechainEpoch : UInt64
  committee : List Text
  deriving DecidableEq, Repr

structure Validator where
  epochNo : UInt64
  position : UInt64
  sidechainPubkey : Text
  deriving DecidableEq, Repr

/-- The answer to `sidechain_getEpochCommittee`. -/
inductive CommitteeAnswer where
  | failed
  | undecodable
  | response (answer : EpochCommitteeResponse)
  deriving DecidableEq, Repr

/-- A request that fails counts as an empty committee. -/
def getCommittee : CommitteeAnswer → Except SpoError (List Validator)
  | .failed => .ok []
  | .undecodable => .error .unexpectedResponse
  | .response answer => .ok (answer.committee.zipIdx.map fun member =>
      ⟨answer.sidechainEpoch, UInt64.ofNat member.2, removeHexPrefix member.1⟩)

end MidnightIndexer.Source.SpoIndexer
