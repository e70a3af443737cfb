import MidnightIndexer.Lib.Bech32

/-!
# Addresses in Bech32m

indexer-common/src/domain.rs:66-109 and indexer-api/src/infra/api/v4.rs:143-216. The
human-readable part of an address is made from its type and the configured network id,
which is any non-empty string without uppercase characters.

The bech32 crate is a parameter. `Hrp` is what its `Hrp::parse` accepts, 1 to 83
printable ASCII characters. `Standard` says what its functions do to the strings of
the format: `encode::<Bech32m>` writes lowercase and fails beyond the code length,
`decode` accepts the checksum of either variant. Whether `decode` rejects padding that is
not canonical is left open. `char::is_uppercase` is a parameter too.
-/

namespace MidnightIndexer.Source.Addresses

open Lib

abbrev Text := List Char

def lower (s : Text) : Text := s.map Char.toLower

/-! ## The crate -/

def printable (c : Char) : Bool := 33 ≤ c.toNat && c.toNat ≤ 126

def validHrp (text : Text) : Bool := 1 ≤ text.length && text.length ≤ 83 && text.all printable

structure Hrp where
  text : Text
  valid : validHrp text = true

def Hrp.parse (text : Text) : Option Hrp :=
  if valid : validHrp text = true then some ⟨text, valid⟩ else none

structure Bech32Crate where
  /-- `CODE_LENGTH` of both variants. -/
  codeLength : Nat
  /-- `encode::<Bech32m>`; `none` is `EncodeError::TooLong`. -/
  encode : Hrp → List UInt8 → Option Text
  /-- `decode`; `none` is any `DecodeError`. The part is returned as it is written. -/
  decode : Text → Option (Hrp × List UInt8)

structure Bech32Crate.Standard (crate : Bech32Crate) : Prop where
  encode_eq : ∀ hrp bytes, crate.encode hrp bytes =
    if (Bech32.encode .bech32m (lower hrp.text) bytes).length ≤ crate.codeLength then
      some (Bech32.encode .bech32m (lower hrp.text) bytes)
    else none
  decode_either : ∀ variant hrp bytes, lower hrp.text = hrp.text →
    (Bech32.encode variant hrp.text bytes).length ≤ crate.codeLength →
    crate.decode (Bech32.encode variant hrp.text bytes) = some (hrp, bytes)
  decode_only : ∀ s hrp bytes, crate.decode s = some (hrp, bytes) →
    s.length ≤ crate.codeLength ∧ ∃ variant symbols,
      lower s = Bech32.text variant (lower hrp.text) symbols ∧ Bech32.toBytes symbols = bytes

/-! ## Network ids -/

inductive InvalidNetworkIdError where
  | empty
  | notLowercase (text : Text)
  deriving DecidableEq, Repr

structure NetworkId (isUppercase : Char → Bool) where
  text : Text
  nonEmpty : text ≠ []
  lowercase : text.any isUppercase = false

variable {isUppercase : Char → Bool}

/-- `TryFrom<String>`, which deserialization and `FromStr` go through. -/
def NetworkId.tryFrom (text : Text) : Except InvalidNetworkIdError (NetworkId isUppercase) :=
  if nonEmpty : text = [] then .error .empty
  else if lowercase : text.any isUppercase = true then .error (.notLowercase text)
  else .ok ⟨text, nonEmpty, eq_false_of_ne_true lowercase⟩

/-! ## Addresses -/

inductive AddressType where
  | unshielded
  | secretEncryptionKey
  | dust
  deriving DecidableEq, Repr

namespace AddressType

def hrpPrefix : AddressType → Text
  | .unshielded => "mn_addr".toList
  | .secretEncryptionKey => "mn_shield-esk".toList
  | .dust => "mn_dust".toList

/-- The main network is not named; `eq_ignore_ascii_case` compares in lower case. -/
def hrp (type : AddressType) (network : NetworkId isUppercase) : Text :=
  if lower network.text = "mainnet".toList then type.hrpPrefix
  else type.hrpPrefix ++ '_' :: network.text

end AddressType

inductive DecodeAddressError where
  | decode
  | invalidHrp (expectedHrp hrp : Text)
  deriving DecidableEq, Repr

def decodeAddress (crate : Bech32Crate) (address : Text) (type : AddressType)
    (network : NetworkId isUppercase) : Except DecodeAddressError (List UInt8) :=
  match crate.decode address with
  | none => .error .decode
  | some (hrp, bytes) =>
    let expectedHrp := type.hrp network
    if hrp.text ≠ expectedHrp then .error (.invalidHrp expectedHrp hrp.text)
    else .ok bytes

/-- `none` is a panic: one of the two `expect`s fails. -/
def encodeAddress (crate : Bech32Crate) (address : List UInt8) (type : AddressType)
    (network : NetworkId isUppercase) : Option Text := do
  let hrp ← Hrp.parse (type.hrp network)
  crate.encode hrp address

/-! ## What the functions do -/

theorem Hrp.parse_eq_some_iff (text : Text) (hrp : Hrp) :
    Hrp.parse text = some hrp ↔ hrp.text = text := by
  unfold Hrp.parse
  constructor
  · intro parsed
    split at parsed
    · cases parsed
      rfl
    · cases parsed
  · rintro rfl
    rw [dif_pos hrp.valid]

theorem decodeAddress_ok_iff (crate : Bech32Crate) (address : Text) (type : AddressType)
    (network : NetworkId isUppercase) (bytes : List UInt8) :
    decodeAddress crate address type network = .ok bytes ↔
      ∃ hrp, crate.decode address = some (hrp, bytes) ∧ hrp.text = type.hrp network := by
  unfold decodeAddress
  rcases crate.decode address with _ | ⟨hrp, decoded⟩
  · simp
  · by_cases same : hrp.text = type.hrp network <;> simp [same]

theorem encodeAddress_eq_some_iff (crate : Bech32Crate) (address : List UInt8)
    (type : AddressType) (network : NetworkId isUppercase) (encoded : Text) :
    encodeAddress crate address type network = some encoded ↔
      ∃ hrp, hrp.text = type.hrp network ∧ crate.encode hrp address = some encoded := by
  unfold encodeAddress
  rw [Option.bind_eq_bind, Option.bind_eq_some_iff]
  simp only [Hrp.parse_eq_some_iff]

end MidnightIndexer.Source.Addresses
