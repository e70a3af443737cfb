import MidnightIndexer.Lib.Bytes

/-!
# Decoding contract log events

indexer-common/src/domain/ledger/ledger_state.rs:112-138 and 1668-2013, with the
attributes of indexer-common/src/domain.rs:577-674. The data of a log item is a
cell with one atom: the flat bytes of the event without trailing zeros. Each
event type has a full size, to which the atom is padded, and a minimum below
which the atom is taken for another layout and every field gets its default.
-/

namespace MidnightIndexer.Source.ContractEvents

open Lib Lib.Bytes

abbrev ByteVec := List UInt8

def shieldedSpendSize : Nat := 32
def shieldedReceiveSize : Nat := 578
def shieldedMintSize : Nat := 81
def shieldedBurnSize : Nat := 49
def unshieldedSpendSize : Nat := 145
def unshieldedReceiveSize : Nat := 145
def unshieldedMintSize : Nat := 80
def unshieldedBurnSize : Nat := 113
def miscSize : Nat := 288
def bytes32Size : Nat := 32
def uint128Size : Nat := 16
def eitherSize : Nat := 1 + 2 * bytes32Size
def maybe512Size : Nat := 1 + 512

inductive LogEventType where
  | shieldedSpend | shieldedReceive | shieldedMint | shieldedBurn
  | unshieldedSpend | unshieldedReceive | unshieldedMint | unshieldedBurn
  | paused | unpaused | misc
  deriving DecidableEq, Repr

/-- `StateValue`; only the atoms of a cell are ever looked at. -/
inductive StateValue where
  | null
  | cell (atoms : List ByteVec)
  | map
  | array
  | boundedMerkleTree
  deriving DecidableEq, Repr

structure VersionedLogItem where
  version : Nat
  eventType : LogEventType
  data : StateValue
  deriving DecidableEq, Repr

inductive AddressOrContract where
  | user (address : ByteVec)
  | contract (address : ByteVec)
  deriving DecidableEq, Repr

/-- The contract variants of `LedgerEventAttributes`. -/
inductive LedgerEventAttributes where
  | contractShieldedSpend (version : Nat) (entryPoint nullifier : ByteVec)
  | contractShieldedReceive (version : Nat) (entryPoint commitment : ByteVec)
      (ciphertext receivingContractAddress : Option ByteVec)
  | contractShieldedMint (version : Nat) (entryPoint commitment domainSep : ByteVec)
      (amount : Option String)
  | contractShieldedBurn (version : Nat) (entryPoint nullifier : ByteVec)
      (amount : Option String)
  | contractUnshieldedSpend (version : Nat) (entryPoint : ByteVec) (sender : AddressOrContract)
      (domainSep tokenType : ByteVec) (amount : String)
  | contractUnshieldedReceive (version : Nat) (entryPoint : ByteVec)
      (recipient : AddressOrContract) (domainSep tokenType : ByteVec) (amount : String)
  | contractUnshieldedMint (version : Nat) (entryPoint domainSep tokenType : ByteVec)
      (amount : String)
  | contractUnshieldedBurn (version : Nat) (entryPoint : ByteVec) (sender : AddressOrContract)
      (tokenType : ByteVec) (amount : String)
  | contractPaused (version : Nat) (entryPoint : ByteVec)
  | contractUnpaused (version : Nat) (entryPoint : ByteVec)
  | contractMisc (version : Nat) (entryPoint name payload : ByteVec)
  deriving DecidableEq, Repr

/-- The atom padded to `max` bytes, if it is the only one and its length is
between `min` and `max`. -/
def extractFlatBytes (data : StateValue) (min max : Nat) : Option ByteVec :=
  match data with
  | .cell [atom] =>
    if max < atom.length then none
    else if atom.length < min then none
    else some (atom ++ List.replicate (max - atom.length) 0)
  | _ => none

def takeBytes (bytes : ByteVec) (offset len : Nat) : Option ByteVec := slice bytes offset len

def takeUint128Le (bytes : ByteVec) (offset : Nat) : Option String :=
  (slice bytes offset uint128Size).map fun number => toString (leNat number)

def takeMaybeBytes (bytes : ByteVec) (offset valueLen : Nat) : Option ByteVec := do
  let tag ← bytes[offset]?
  if tag = 0 then none else slice bytes (offset + 1) valueLen

def takeMaybeUint128Le (bytes : ByteVec) (offset : Nat) : Option String := do
  let tag ← bytes[offset]?
  if tag = 0 then none
  else (slice bytes (offset + 1) uint128Size).map fun number => toString (leNat number)

/-- The tag says whether the left slot, a user key, holds the value. -/
def takeEitherAddress (bytes : ByteVec) (offset : Nat) : Option AddressOrContract := do
  let isLeft ← bytes[offset]?
  if isLeft = 0 then
    (slice bytes (offset + 1 + bytes32Size) bytes32Size).map .contract
  else (slice bytes (offset + 1) bytes32Size).map .user

def makeContractEventAttributes (item : VersionedLogItem) (entryPoint : ByteVec) :
    LedgerEventAttributes :=
  match item.eventType with
  | .shieldedSpend =>
    let bytes := extractFlatBytes item.data shieldedSpendSize shieldedSpendSize
    .contractShieldedSpend item.version entryPoint
      ((bytes.bind fun b => takeBytes b 0 bytes32Size).getD [])
  | .shieldedReceive =>
    let bytes := extractFlatBytes item.data bytes32Size shieldedReceiveSize
    .contractShieldedReceive item.version entryPoint
      ((bytes.bind fun b => takeBytes b 0 bytes32Size).getD [])
      (bytes.bind fun b => takeMaybeBytes b bytes32Size 512)
      (bytes.bind fun b => takeMaybeBytes b (bytes32Size + maybe512Size) bytes32Size)
  | .shieldedMint =>
    let bytes := extractFlatBytes item.data (2 * bytes32Size) shieldedMintSize
    .contractShieldedMint item.version entryPoint
      ((bytes.bind fun b => takeBytes b 0 bytes32Size).getD [])
      ((bytes.bind fun b => takeBytes b bytes32Size bytes32Size).getD [])
      (bytes.bind fun b => takeMaybeUint128Le b (2 * bytes32Size))
  | .shieldedBurn =>
    let bytes := extractFlatBytes item.data bytes32Size shieldedBurnSize
    .contractShieldedBurn item.version entryPoint
      ((bytes.bind fun b => takeBytes b 0 bytes32Size).getD [])
      (bytes.bind fun b => takeMaybeUint128Le b bytes32Size)
  | .unshieldedSpend =>
    let bytes := extractFlatBytes item.data (unshieldedSpendSize - uint128Size)
      unshieldedSpendSize
    .contractUnshieldedSpend item.version entryPoint
      ((bytes.bind fun b => takeEitherAddress b 0).getD (.user []))
      ((bytes.bind fun b => takeBytes b eitherSize bytes32Size).getD [])
      ((bytes.bind fun b => takeBytes b (eitherSize + bytes32Size) bytes32Size).getD [])
      ((bytes.bind fun b => takeUint128Le b (eitherSize + 2 * bytes32Size)).getD "0")
  | .unshieldedReceive =>
    let bytes := extractFlatBytes item.data (unshieldedReceiveSize - uint128Size)
      unshieldedReceiveSize
    .contractUnshieldedReceive item.version entryPoint
      ((bytes.bind fun b => takeEitherAddress b 0).getD (.user []))
      ((bytes.bind fun b => takeBytes b eitherSize bytes32Size).getD [])
      ((bytes.bind fun b => takeBytes b (eitherSize + bytes32Size) bytes32Size).getD [])
      ((bytes.bind fun b => takeUint128Le b (eitherSize + 2 * bytes32Size)).getD "0")
  | .unshieldedMint =>
    let bytes := extractFlatBytes item.data (unshieldedMintSize - uint128Size)
      unshieldedMintSize
    .contractUnshieldedMint item.version entryPoint
      ((bytes.bind fun b => takeBytes b 0 bytes32Size).getD [])
      ((bytes.bind fun b => takeBytes b bytes32Size bytes32Size).getD [])
      ((bytes.bind fun b => takeUint128Le b (2 * bytes32Size)).getD "0")
  | .unshieldedBurn =>
    let bytes := extractFlatBytes item.data (unshieldedBurnSize - uint128Size)
      unshieldedBurnSize
    .contractUnshieldedBurn item.version entryPoint
      ((bytes.bind fun b => takeEitherAddress b 0).getD (.user []))
      ((bytes.bind fun b => takeBytes b eitherSize bytes32Size).getD [])
      ((bytes.bind fun b => takeUint128Le b (eitherSize + bytes32Size)).getD "0")
  | .paused => .contractPaused item.version entryPoint
  | .unpaused => .contractUnpaused item.version entryPoint
  | .misc =>
    let bytes := extractFlatBytes item.data bytes32Size miscSize
    .contractMisc item.version entryPoint
      ((bytes.bind fun b => takeBytes b 0 bytes32Size).getD [])
      ((bytes.bind fun b => takeBytes b bytes32Size 256).getD [])

/-! ## Reading a field of a concatenation -/

/-- What a stripped atom is padded back to. -/
theorem extractFlatBytes_stripped (bytes : ByteVec) {min max : Nat} (full : bytes.length = max) :
    extractFlatBytes (.cell [stripZeros bytes]) min max =
      if min ≤ (stripZeros bytes).length then some bytes else none := by
  have shorter := stripZeros_length_le bytes
  unfold extractFlatBytes
  dsimp only
  rw [if_neg (by omega)]
  split
  · rw [if_neg (by omega)]
  · rw [if_pos (by omega), ← full, stripZeros_pad]

section

variable {before : ByteVec} (rest : ByteVec) {offset : Nat} (past : before.length ≤ offset)

include past

theorem takeBytes_skip (len : Nat) :
    takeBytes (before ++ rest) offset len = takeBytes rest (offset - before.length) len :=
  slice_skip rest past len

theorem takeUint128Le_skip :
    takeUint128Le (before ++ rest) offset = takeUint128Le rest (offset - before.length) := by
  unfold takeUint128Le
  rw [slice_skip rest past]

theorem takeMaybeBytes_skip (len : Nat) : takeMaybeBytes (before ++ rest) offset len =
      takeMaybeBytes rest (offset - before.length) len := by
  unfold takeMaybeBytes
  rw [List.getElem?_append_right past, slice_skip rest (Nat.le_succ_of_le past), Nat.succ_sub past]

theorem takeMaybeUint128Le_skip : takeMaybeUint128Le (before ++ rest) offset =
    takeMaybeUint128Le rest (offset - before.length) := by
  unfold takeMaybeUint128Le
  rw [List.getElem?_append_right past, slice_skip rest (Nat.le_succ_of_le past), Nat.succ_sub past]

end

theorem takeBytes_first {field : ByteVec} {len : Nat} (size : field.length = len)
    (rest : ByteVec) : takeBytes (field ++ rest) 0 len = some field := by
  rw [← size]
  exact slice_first field rest

theorem takeUint128Le_first {n : Nat} (fits : n < 2 ^ 128) (rest : ByteVec) :
    takeUint128Le (leBytes 16 n ++ rest) 0 = some (toString n) := by
  have read := takeBytes_first (leBytes_length 16 n) rest
  have small : n % 256 ^ 16 = n := Nat.mod_eq_of_lt fits
  unfold takeUint128Le uint128Size
  rw [takeBytes] at read
  rw [read, Option.map_some, leNat_leBytes, small]

end MidnightIndexer.Source.ContractEvents
