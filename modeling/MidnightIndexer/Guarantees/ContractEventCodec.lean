import MidnightIndexer.Source.ContractEvents

/-!
# What survives the encoding of contract events

The canonical encoding of an event value, as the decoder documents it, and when
the decoder gets the value back from the encoding without its trailing zeros.
The minimum of each layout is the end of its last fixed field. An atom shorter
than that is refused, and stripping makes it shorter when the fixed field itself
ends in a zero byte and nothing follows. So a value is decoded exactly or, in
that one case, not at all.
-/

namespace MidnightIndexer.Guarantees.ContractEventCodec

open Lib Lib.Bytes List Source Source.ContractEvents

/-- `Bytes<n>`. -/
structure FixedBytes (n : Nat) where
  bytes : ByteVec
  length_eq : bytes.length = n
  deriving DecidableEq

attribute [simp] FixedBytes.length_eq

/-- `Uint<128>`. -/
abbrev Uint128 := Fin (2 ^ 128)

/-- `Either<ZswapCoinPublicKey, ContractAddress>`. -/
inductive EitherAddress where
  | left (user : FixedBytes 32)
  | right (contract : FixedBytes 32)
  deriving DecidableEq

/-- The event values with a payload, fields in their documented order. -/
inductive ContractEvent where
  | shieldedSpend (nullifier : FixedBytes 32)
  | shieldedReceive (commitment : FixedBytes 32) (ciphertext : Option (FixedBytes 512))
      (contractAddress : Option (FixedBytes 32))
  | shieldedMint (commitment domainSep : FixedBytes 32) (amount : Option Uint128)
  | shieldedBurn (nullifier : FixedBytes 32) (amount : Option Uint128)
  | unshieldedSpend (sender : EitherAddress) (domainSep tokenType : FixedBytes 32)
      (amount : Uint128)
  | unshieldedReceive (recipient : EitherAddress) (domainSep tokenType : FixedBytes 32)
      (amount : Uint128)
  | unshieldedMint (domainSep tokenType : FixedBytes 32) (amount : Uint128)
  | unshieldedBurn (sender : EitherAddress) (tokenType : FixedBytes 32) (amount : Uint128)
  | misc (name : FixedBytes 32) (payload : FixedBytes 256)

def encodeUint128 (amount : Uint128) : ByteVec := leBytes 16 amount.val

def encodeMaybeBytes {n : Nat} : Option (FixedBytes n) → ByteVec
  | none => 0 :: List.replicate n 0
  | some value => 1 :: value.bytes

def encodeMaybeUint128 : Option Uint128 → ByteVec
  | none => 0 :: List.replicate 16 0
  | some amount => 1 :: encodeUint128 amount

def encodeEither : EitherAddress → ByteVec
  | .left user => 1 :: (user.bytes ++ List.replicate 32 0)
  | .right contract => 0 :: (List.replicate 32 0 ++ contract.bytes)

namespace ContractEvent

def eventType : ContractEvent → LogEventType
  | .shieldedSpend .. => .shieldedSpend
  | .shieldedReceive .. => .shieldedReceive
  | .shieldedMint .. => .shieldedMint
  | .shieldedBurn .. => .shieldedBurn
  | .unshieldedSpend .. => .unshieldedSpend
  | .unshieldedReceive .. => .unshieldedReceive
  | .unshieldedMint .. => .unshieldedMint
  | .unshieldedBurn .. => .unshieldedBurn
  | .misc .. => .misc

/-- The fields before the last fixed field. -/
def leading : ContractEvent → ByteVec
  | .shieldedSpend _ => []
  | .shieldedReceive _ _ _ => []
  | .shieldedMint commitment _ _ => commitment.bytes
  | .shieldedBurn _ _ => []
  | .unshieldedSpend sender domainSep _ _ => encodeEither sender ++ domainSep.bytes
  | .unshieldedReceive recipient domainSep _ _ => encodeEither recipient ++ domainSep.bytes
  | .unshieldedMint domainSep _ _ => domainSep.bytes
  | .unshieldedBurn sender _ _ => encodeEither sender
  | .misc _ _ => []

/-- The last field that is there in every value. -/
def lastFixed : ContractEvent → FixedBytes 32
  | .shieldedSpend nullifier => nullifier
  | .shieldedReceive commitment _ _ => commitment
  | .shieldedMint _ domainSep _ => domainSep
  | .shieldedBurn nullifier _ => nullifier
  | .unshieldedSpend _ _ tokenType _ => tokenType
  | .unshieldedReceive _ _ tokenType _ => tokenType
  | .unshieldedMint _ tokenType _ => tokenType
  | .unshieldedBurn _ tokenType _ => tokenType
  | .misc name _ => name

/-- The fields after it, which may be all zero. -/
def trailing : ContractEvent → ByteVec
  | .shieldedSpend _ => []
  | .shieldedReceive _ ciphertext contractAddress =>
    encodeMaybeBytes ciphertext ++ encodeMaybeBytes contractAddress
  | .shieldedMint _ _ amount => encodeMaybeUint128 amount
  | .shieldedBurn _ amount => encodeMaybeUint128 amount
  | .unshieldedSpend _ _ _ amount => encodeUint128 amount
  | .unshieldedReceive _ _ _ amount => encodeUint128 amount
  | .unshieldedMint _ _ amount => encodeUint128 amount
  | .unshieldedBurn _ _ amount => encodeUint128 amount
  | .misc _ payload => payload.bytes

/-- The canonical flat encoding. -/
def encode (event : ContractEvent) : ByteVec :=
  event.leading ++ (event.lastFixed.bytes ++ event.trailing)

/-- The log item of an event: its encoding without the trailing zeros, in the
single atom of a cell. -/
def item (version : Nat) (event : ContractEvent) : VersionedLogItem :=
  ⟨version, event.eventType, .cell [stripZeros event.encode]⟩

/-- Something after the last fixed field is not zero. -/
def TrailingPresent : ContractEvent → Prop
  | .shieldedSpend _ => False
  | .shieldedReceive _ ciphertext contractAddress => ciphertext ≠ none ∨ contractAddress ≠ none
  | .shieldedMint _ _ amount => amount ≠ none
  | .shieldedBurn _ amount => amount ≠ none
  | .unshieldedSpend _ _ _ amount => amount ≠ 0
  | .unshieldedReceive _ _ _ amount => amount ≠ 0
  | .unshieldedMint _ _ amount => amount ≠ 0
  | .unshieldedBurn _ _ amount => amount ≠ 0
  | .misc _ payload => ∃ byte ∈ payload.bytes, byte ≠ 0

/-- The last fixed field does not end in a zero byte, or something follows. -/
def Recoverable (event : ContractEvent) : Prop :=
  event.lastFixed.bytes.getLast? ≠ some 0 ∨ event.TrailingPresent

end ContractEvent

def addressOf : EitherAddress → AddressOrContract
  | .left user => .user user.bytes
  | .right contract => .contract contract.bytes

/-- The attributes that are exactly the event's values. -/
def attributesOf (version : Nat) (entryPoint : ByteVec) : ContractEvent → LedgerEventAttributes
  | .shieldedSpend nullifier => .contractShieldedSpend version entryPoint nullifier.bytes
  | .shieldedReceive commitment ciphertext contractAddress =>
    .contractShieldedReceive version entryPoint commitment.bytes
      (ciphertext.map (·.bytes)) (contractAddress.map (·.bytes))
  | .shieldedMint commitment domainSep amount =>
    .contractShieldedMint version entryPoint commitment.bytes domainSep.bytes
      (amount.map fun a => toString a.val)
  | .shieldedBurn nullifier amount =>
    .contractShieldedBurn version entryPoint nullifier.bytes (amount.map fun a => toString a.val)
  | .unshieldedSpend sender domainSep tokenType amount =>
    .contractUnshieldedSpend version entryPoint (addressOf sender) domainSep.bytes
      tokenType.bytes (toString amount.val)
  | .unshieldedReceive recipient domainSep tokenType amount =>
    .contractUnshieldedReceive version entryPoint (addressOf recipient) domainSep.bytes
      tokenType.bytes (toString amount.val)
  | .unshieldedMint domainSep tokenType amount =>
    .contractUnshieldedMint version entryPoint domainSep.bytes tokenType.bytes
      (toString amount.val)
  | .unshieldedBurn sender tokenType amount =>
    .contractUnshieldedBurn version entryPoint (addressOf sender) tokenType.bytes
      (toString amount.val)
  | .misc name payload => .contractMisc version entryPoint name.bytes payload.bytes

/-! ## Lengths and zeros of the encoding -/

variable {n : Nat} {event : ContractEvent}

theorem FixedBytes.ne_nil (field : FixedBytes (n + 1)) : field.bytes ≠ [] := by
  intro empty
  have length := field.length_eq
  rw [empty] at length
  cases length

@[simp] theorem encodeUint128_length (amount : Uint128) : (encodeUint128 amount).length = 16 :=
  leBytes_length 16 amount.val

variable (value : Option (FixedBytes n))

@[simp] theorem encodeMaybeBytes_length : (encodeMaybeBytes value).length = n + 1 := by
  cases value with
  | none | some => simp [encodeMaybeBytes]

variable (amount : Option Uint128)

@[simp] theorem encodeMaybeUint128_length : (encodeMaybeUint128 amount).length = 17 := by
  cases amount <;> simp [encodeMaybeUint128]

@[simp] theorem encodeEither_length (address : EitherAddress) :
    (encodeEither address).length = 65 := by
  cases address with
  | left user => simp [encodeEither, user.length_eq]
  | right contract => simp [encodeEither, contract.length_eq]

theorem encodeUint128_nonzero_iff (amount : Uint128) :
    (∃ byte ∈ encodeUint128 amount, byte ≠ 0) ↔ amount ≠ 0 := by
  have fits : amount.val < 256 ^ 16 := amount.isLt
  rw [encodeUint128, leBytes_nonzero_iff fits, ne_eq, ne_eq, Fin.ext_iff]
  rfl

theorem encodeMaybeBytes_nonzero_iff :
    (∃ byte ∈ encodeMaybeBytes value, byte ≠ 0) ↔ value ≠ none := by
  cases value with
  | none | some => simp [encodeMaybeBytes]

theorem encodeMaybeUint128_nonzero_iff :
    (∃ byte ∈ encodeMaybeUint128 amount, byte ≠ 0) ↔ amount ≠ none := by
  cases amount with
  | none | some => simp [encodeMaybeUint128]

open ContractEvent

theorem trailing_nonzero_iff (event : ContractEvent) :
    (∃ byte ∈ event.trailing, byte ≠ 0) ↔ event.TrailingPresent := by
  cases event with
  | shieldedSpend nullifier => simp [trailing, ContractEvent.TrailingPresent]
  | shieldedReceive commitment ciphertext contractAddress =>
    unfold trailing ContractEvent.TrailingPresent
    dsimp only
    rw [← encodeMaybeBytes_nonzero_iff, ← encodeMaybeBytes_nonzero_iff]
    simp only [mem_append, or_and_right, exists_or]
  | shieldedMint commitment domainSep amount | shieldedBurn nullifier amount =>
    exact encodeMaybeUint128_nonzero_iff amount
  | unshieldedSpend sender domainSep tokenType amount => exact encodeUint128_nonzero_iff amount
  | unshieldedReceive recipient domainSep tokenType amount =>
    exact encodeUint128_nonzero_iff amount
  | unshieldedMint domainSep tokenType amount | unshieldedBurn sender tokenType amount =>
    exact encodeUint128_nonzero_iff amount
  | misc name payload => rfl

/-- The stripped encoding reaches the end of the last fixed field exactly for
the recoverable values. -/
theorem covers_fixed_iff (event : ContractEvent) :
    event.leading.length + 32 ≤ (stripZeros event.encode).length ↔ event.Recoverable := by
  have nonempty : event.leading ++ event.lastFixed.bytes ≠ [] := by
    intro empty
    exact event.lastFixed.ne_nil (append_eq_nil_iff.mp empty).2
  have covers := covers_iff nonempty event.trailing
  rw [length_append, event.lastFixed.length_eq, append_assoc,
    getLast?_append_of_ne_nil _ event.lastFixed.ne_nil, trailing_nonzero_iff] at covers
  exact covers

/-! ## Layouts -/

/-- The size of each layout and the end of its last fixed field, as the decoder
has them. -/
def layout : LogEventType → Nat × Nat
  | .shieldedSpend => (shieldedSpendSize, shieldedSpendSize)
  | .shieldedReceive => (bytes32Size, shieldedReceiveSize)
  | .shieldedMint => (2 * bytes32Size, shieldedMintSize)
  | .shieldedBurn => (bytes32Size, shieldedBurnSize)
  | .unshieldedSpend => (unshieldedSpendSize - uint128Size, unshieldedSpendSize)
  | .unshieldedReceive => (unshieldedReceiveSize - uint128Size, unshieldedReceiveSize)
  | .unshieldedMint => (unshieldedMintSize - uint128Size, unshieldedMintSize)
  | .unshieldedBurn => (unshieldedBurnSize - uint128Size, unshieldedBurnSize)
  | .paused => (0, 0)
  | .unpaused => (0, 0)
  | .misc => (bytes32Size, miscSize)

theorem leading_length (event : ContractEvent) :
    event.leading.length + 32 = (layout event.eventType).1 := by
  cases event <;> simp [leading, eventType, layout,
    FixedBytes.length_eq, shieldedSpendSize, bytes32Size, unshieldedSpendSize,
    unshieldedReceiveSize, unshieldedMintSize, unshieldedBurnSize, uint128Size]

theorem encode_length (event : ContractEvent) :
    event.encode.length = (layout event.eventType).2 := by
  cases event <;> simp [encode, leading, lastFixed,
    trailing, eventType, layout, FixedBytes.length_eq,
    shieldedSpendSize, shieldedReceiveSize, shieldedMintSize, shieldedBurnSize,
    unshieldedSpendSize, unshieldedReceiveSize, unshieldedMintSize, unshieldedBurnSize, miscSize]

/-- The decoder's buffer for an event. -/
theorem extract_recoverable (recoverable : event.Recoverable) :
    extractFlatBytes (.cell [stripZeros event.encode]) (layout event.eventType).1
      (layout event.eventType).2 = some event.encode := by
  rw [extractFlatBytes_stripped _ (encode_length event), if_pos]
  rw [← leading_length]
  exact (covers_fixed_iff event).mpr recoverable

theorem extract_lost (lost : ¬ event.Recoverable) :
    extractFlatBytes (.cell [stripZeros event.encode]) (layout event.eventType).1
      (layout event.eventType).2 = none := by
  rw [extractFlatBytes_stripped _ (encode_length event), if_neg]
  rw [← leading_length]
  exact fun long => lost ((covers_fixed_iff event).mp long)

/-! ## Fields -/

theorem takeUint128Le_encode (amount : Uint128) (rest : ByteVec) :
    takeUint128Le (encodeUint128 amount ++ rest) 0 = some (toString amount.val) :=
  takeUint128Le_first amount.isLt rest

theorem takeMaybeBytes_encode (rest : ByteVec) :
    takeMaybeBytes (encodeMaybeBytes value ++ rest) 0 n = value.map (·.bytes) := by
  cases value with
  | none => rfl
  | some value => exact (slice_cons 1 _ 0 n).trans (takeBytes_first value.length_eq rest)

theorem takeMaybeUint128Le_encode (rest : ByteVec) :
    takeMaybeUint128Le (encodeMaybeUint128 amount ++ rest) 0 =
      amount.map fun a => toString a.val := by
  cases amount with
  | none => rfl
  | some amount =>
    exact (congrArg (Option.map _) (slice_cons 1 _ 0 16)).trans (takeUint128Le_encode amount rest)

theorem takeEitherAddress_encode (address : EitherAddress) (rest : ByteVec) :
    takeEitherAddress (encodeEither address ++ rest) 0 = some (addressOf address) := by
  cases address with
  | left user =>
    have read := takeBytes_first user.length_eq (replicate 32 0 ++ rest)
    rw [← append_assoc] at read
    exact congrArg (Option.map AddressOrContract.user) ((slice_cons 1 _ 0 32).trans read)
  | right contract =>
    have read : takeBytes (replicate 32 0 ++ (contract.bytes ++ rest)) 32 32 = _ :=
      (takeBytes_skip _ le_rfl 32).trans (takeBytes_first contract.length_eq rest)
    rw [← append_assoc] at read
    exact congrArg (Option.map AddressOrContract.contract) ((slice_cons 0 _ 32 32).trans read)

/-! ## Decoding -/

/-- A recoverable value is decoded exactly: each field is read behind those before it. -/
theorem decode_recoverable (version : Nat) (entryPoint : ByteVec)
    (recoverable : event.Recoverable) :
    makeContractEventAttributes (event.item version) entryPoint =
      attributesOf version entryPoint event := by
  have bytes := extract_recoverable recoverable
  have fields : event.encode =
      event.leading ++ (event.lastFixed.bytes ++ (event.trailing ++ [])) := by
    rw [append_nil]
    rfl
  unfold makeContractEventAttributes item
  cases event <;> dsimp only [eventType, layout] at bytes ⊢ <;>
    simp only [bytes] <;>
    simp [-append_nil, fields, leading, lastFixed, trailing, attributesOf,
      bytes32Size, eitherSize, maybe512Size, takeBytes_skip, takeUint128Le_skip,
      takeMaybeBytes_skip, takeMaybeUint128Le_skip, takeBytes_first, takeUint128Le_encode,
      takeMaybeBytes_encode, takeMaybeUint128Le_encode, takeEitherAddress_encode]

def lastFixedOf : LedgerEventAttributes → ByteVec
  | .contractShieldedSpend _ _ nullifier => nullifier
  | .contractShieldedReceive _ _ commitment _ _ => commitment
  | .contractShieldedMint _ _ _ domainSep _ => domainSep
  | .contractShieldedBurn _ _ nullifier _ => nullifier
  | .contractUnshieldedSpend _ _ _ _ tokenType _ => tokenType
  | .contractUnshieldedReceive _ _ _ _ tokenType _ => tokenType
  | .contractUnshieldedMint _ _ _ tokenType _ => tokenType
  | .contractUnshieldedBurn _ _ _ tokenType _ => tokenType
  | .contractPaused _ _ => []
  | .contractUnpaused _ _ => []
  | .contractMisc _ _ name _ => name

theorem lastFixedOf_attributesOf (version : Nat) (entryPoint : ByteVec) (event : ContractEvent) :
    lastFixedOf (attributesOf version entryPoint event) = event.lastFixed.bytes := by
  cases event <;> rfl

/-- Of any other value nothing is left, its fixed fields included. -/
theorem decode_lost (version : Nat) (entryPoint : ByteVec) (lost : ¬ event.Recoverable) :
    lastFixedOf (makeContractEventAttributes (event.item version) entryPoint) = [] := by
  have bytes := extract_lost lost
  unfold makeContractEventAttributes item
  cases event <;> dsimp only [eventType, layout] at bytes ⊢ <;> rw [bytes] <;> rfl

/-- Decoding the stripped canonical encoding of a value yields that value
exactly when its last fixed field does not end in a zero byte or something
non-zero follows it. -/
theorem decode_stripped_iff (version : Nat) (entryPoint : ByteVec) (event : ContractEvent) :
    makeContractEventAttributes (event.item version) entryPoint =
      attributesOf version entryPoint event ↔ event.Recoverable := by
  constructor
  · intro exact_value
    by_contra lost
    have empty := decode_lost version entryPoint lost
    rw [exact_value, lastFixedOf_attributesOf] at empty
    exact event.lastFixed.ne_nil empty
  · exact decode_recoverable version entryPoint

/-- A nullifier of 31 ones and a final zero byte is decoded as no bytes at
all. -/
theorem stripped_nullifier_lost :
    makeContractEventAttributes
        ((ContractEvent.shieldedSpend ⟨List.replicate 31 1 ++ [0], rfl⟩).item 1) [] =
      .contractShieldedSpend 1 [] [] ∧
    makeContractEventAttributes
        ((ContractEvent.shieldedSpend ⟨List.replicate 31 1 ++ [0], rfl⟩).item 1) [] ≠
      attributesOf 1 [] (.shieldedSpend ⟨List.replicate 31 1 ++ [0], rfl⟩) := by
  decide +kernel

end MidnightIndexer.Guarantees.ContractEventCodec
