import MidnightIndexer.Source.Addresses

/-!
# Addresses are read back as they were written

Encoding and decoding an address compared for every accepted network id, every type and
every byte string, and decoding compared with encoding for every string. Encoding panics
for network ids that make no human-readable part and for byte strings beyond the code
length; decoding accepts what is not the Bech32m encoding of the bytes it returns.
-/

namespace MidnightIndexer.Guarantees.Addresses

open Lib List Source.Addresses Bech32

variable {isUppercase : Char → Bool}

/-- The network id makes a human-readable part and the bytes fit in the code. -/
def Encodable (crate : Bech32Crate) (type : AddressType) (network : NetworkId isUppercase)
    (bytes : List UInt8) : Prop :=
  (network.text = "mainnet".toList ∨ network.text.all printable = true ∧
    type.hrpPrefix.length + 1 + network.text.length ≤ 83) ∧
  (type.hrp network).length + 1 + (8 * bytes.length + 4) / 5 + 6 ≤ crate.codeLength

/-- If the crate reads the string with the expected part, then it carries the checksum of
Bech32m and canonical padding. -/
def CarriesBech32m (crate : Bech32Crate) (type : AddressType) (network : NetworkId isUppercase)
    (s : Text) : Prop :=
  ∀ hrp bytes, crate.decode s = some (hrp, bytes) → hrp.text = type.hrp network →
    ∀ variant symbols, lower s = Bech32.text variant hrp.text symbols →
      variant = .bech32m ∧ Bech32.Canonical symbols

/-! ## The human-readable part -/

theorem toLower_of_not_isUpper {c : Char} (not_upper : c.isUpper = false) : c.toLower = c := by
  unfold Char.toLower
  exact dif_neg (of_decide_eq_false not_upper)

variable (ascii : ∀ c : Char, c.toNat < 128 → isUppercase c = c.isUpper)

include ascii in
/-- What is not uppercase is its own lower case, in ASCII and beyond it. -/
theorem lower_network (network : NetworkId isUppercase) : lower network.text = network.text := by
  have kept : ∀ c ∈ network.text, c.toLower = c := by
    intro c member
    have not_uppercase : isUppercase c = false := by
      simpa using any_eq_false.mp network.lowercase c member
    apply toLower_of_not_isUpper
    by_cases small : c.toNat < 128
    · rw [← ascii c small]
      exact not_uppercase
    · apply decide_eq_false
      rintro ⟨_, below⟩
      have : c.toNat ≤ 90 := below
      omega
  calc lower network.text = network.text.map id := map_congr_left kept
    _ = network.text := map_id network.text

variable (type : AddressType)

theorem hrpPrefix_lower : lower type.hrpPrefix = type.hrpPrefix := by
  cases type <;> decide

theorem hrpPrefix_valid : validHrp type.hrpPrefix = true := by
  cases type <;> decide

include ascii in
theorem lower_hrp (network : NetworkId isUppercase) :
    lower (type.hrp network) = type.hrp network := by
  unfold AddressType.hrp
  split
  · exact hrpPrefix_lower type
  · have joined : lower (type.hrpPrefix ++ '_' :: network.text) =
        lower type.hrpPrefix ++ '_' :: lower network.text := by
      simp [lower]
    rw [joined, hrpPrefix_lower, lower_network ascii]

include ascii in
theorem validHrp_hrp_iff (network : NetworkId isUppercase) : validHrp (type.hrp network) = true ↔
      network.text = "mainnet".toList ∨ network.text.all printable = true ∧
        type.hrpPrefix.length + 1 + network.text.length ≤ 83 := by
  unfold AddressType.hrp
  rw [lower_network ascii]
  by_cases mainnet : network.text = "mainnet".toList
  · rw [if_pos mainnet]
    exact iff_of_true (hrpPrefix_valid type) (.inl mainnet)
  · rw [if_neg mainnet]
    have front : type.hrpPrefix.all printable = true := by
      cases type <;> decide
    simp only [validHrp, all_append, front, all_cons, length_append,
      length_cons, Bool.and_eq_true, decide_eq_true_eq, mainnet, false_or, true_and]
    constructor
    · rintro ⟨⟨_, short⟩, _, printed⟩
      exact ⟨printed, by omega⟩
    · rintro ⟨printed, short⟩
      exact ⟨⟨by omega, by omega⟩, by decide, printed⟩

/-! ## Both directions -/

/-- When encoding does not panic, and what it then returns. -/
theorem encodeAddress_standard {crate : Bech32Crate} (standard : crate.Standard)
    (ascii : ∀ c : Char, c.toNat < 128 → isUppercase c = c.isUpper) (bytes : List UInt8)
    (type : AddressType) (network : NetworkId isUppercase) (encoded : Text) :
    encodeAddress crate bytes type network = some encoded ↔ Encodable crate type network bytes ∧
        encoded = encode .bech32m (type.hrp network) bytes := by
  rw [encodeAddress_eq_some_iff, Encodable, ← validHrp_hrp_iff ascii, ← encode_length .bech32m]
  constructor
  · rintro ⟨hrp, is_hrp, step⟩
    rw [standard.encode_eq, is_hrp, lower_hrp ascii, Option.ite_none_right_eq_some] at step
    obtain ⟨fits, same⟩ := step
    exact ⟨⟨is_hrp ▸ hrp.valid, fits⟩, (Option.some.inj same).symm⟩
  · rintro ⟨⟨valid, fits⟩, rfl⟩
    refine ⟨⟨type.hrp network, valid⟩, rfl, ?_⟩
    rw [standard.encode_eq, lower_hrp ascii, if_pos fits]

/-- An address is written without a panic and read back, and a string is read only as the
bytes it is the encoding of up to letter case, exactly when the network id and the bytes
can be encoded and the string, if it is read at all, carries the checksum of Bech32m and
canonical padding. -/
theorem address_round_trip_iff (crate : Bech32Crate) (standard : crate.Standard)
    (ascii : ∀ c : Char, c.toNat < 128 → isUppercase c = c.isUpper)
    (network : NetworkId isUppercase) (type : AddressType) (bytes : List UInt8) (s : Text) :
    ((∃ encoded, encodeAddress crate bytes type network = some encoded ∧
        decodeAddress crate encoded type network = .ok bytes) ∧
      ∀ decoded, decodeAddress crate s type network = .ok decoded →
        encodeAddress crate decoded type network = some (lower s)) ↔
      Encodable crate type network bytes ∧ CarriesBech32m crate type network s := by
  constructor
  · rintro ⟨⟨encoded, written, _⟩, only⟩
    refine ⟨((encodeAddress_standard standard ascii bytes type network encoded).mp written).1, ?_⟩
    intro hrp decoded read is_hrp variant symbols spelled
    have accepted : decodeAddress crate s type network = .ok decoded :=
      (decodeAddress_ok_iff crate s type network decoded).mpr ⟨hrp, read, is_hrp⟩
    have again := only decoded accepted
    rw [encodeAddress_standard standard ascii, ← is_hrp, spelled] at again
    obtain ⟨rfl, rfl⟩ := Bech32.text_injective again.2
    exact ⟨rfl, Bech32.canonical_toSymbols decoded⟩
  · rintro ⟨encodable, carries⟩
    have written := (encodeAddress_standard standard ascii bytes type network _).mpr
      ⟨encodable, rfl⟩
    obtain ⟨usable, fits⟩ := encodable
    have valid := (validHrp_hrp_iff ascii type network).mpr usable
    refine ⟨⟨_, written, ?_⟩, ?_⟩
    · rw [decodeAddress_ok_iff]
      refine ⟨⟨type.hrp network, valid⟩, ?_, rfl⟩
      apply standard.decode_either .bech32m ⟨type.hrp network, valid⟩ bytes
      · exact lower_hrp ascii type network
      · rw [Bech32.encode_length]
        exact fits
    · intro decoded accepted
      obtain ⟨hrp, read, is_hrp⟩ := (decodeAddress_ok_iff crate s type network decoded).mp accepted
      obtain ⟨short, variant, symbols, spelled, rfl⟩ := standard.decode_only s hrp decoded read
      rw [is_hrp, lower_hrp ascii] at spelled
      obtain ⟨rfl, canonical⟩ := carries hrp _ read is_hrp variant symbols (is_hrp ▸ spelled)
      have same : lower s = Bech32.encode .bech32m (type.hrp network) (Bech32.toBytes symbols) := by
        rw [Bech32.encode, (Bech32.toSymbols_toBytes_iff symbols).mpr canonical, spelled]
      have length : (lower s).length = s.length := List.length_map ..
      rw [encodeAddress_standard standard ascii]
      refine ⟨⟨usable, ?_⟩, same⟩
      rw [← Bech32.encode_length .bech32m, ← same, length]
      exact short

/-! ## The format read and written by its own rules -/

def referenceCrate : Bech32Crate where
  codeLength := 1023
  encode hrp bytes :=
    let s := Bech32.encode .bech32m (lower hrp.text) bytes
    if s.length ≤ 1023 then some s else none
  decode s := do
    let (part, symbols) ← Bech32.read s
    let hrp ← Hrp.parse part
    if s.length ≤ 1023 then some (hrp, Bech32.toBytes symbols) else none

theorem referenceCrate_standard : referenceCrate.Standard := by
  constructor
  · intro hrp bytes
    rfl
  · intro variant hrp bytes lowercase fits
    have short : (encode variant hrp.text bytes).length ≤ 1023 := fits
    have parsed : Hrp.parse hrp.text = some hrp := (Hrp.parse_eq_some_iff hrp.text hrp).mpr rfl
    have read := read_text variant lowercase (toSymbols bytes)
    rw [← encode] at read
    simp only [referenceCrate, read, Option.bind_eq_bind, Option.bind_some, parsed]
    rw [if_pos short, (toBytes_toSymbols bytes).1]
  · intro s hrp bytes decoded
    simp only [referenceCrate, Option.bind_eq_bind, Option.bind_eq_some_iff] at decoded
    obtain ⟨⟨part, symbols⟩, read, parsed, is_hrp, decoded⟩ := decoded
    obtain ⟨fits, same⟩ := Option.ite_none_right_eq_some.mp decoded
    cases same
    obtain ⟨variant, spelled⟩ := text_of_read read
    rw [← (Hrp.parse_eq_some_iff part hrp).mp is_hrp] at spelled
    exact ⟨fits, variant, symbols, spelled, rfl⟩

def undeployed : NetworkId Char.isUpper := ⟨"undeployed".toList, by decide, by decide⟩

def dustAddress : Text := "mn_dust_undeployed1qypqxpq9q93lsa".toList

theorem undeployed_address_round_trip :
    dustAddress = Bech32.encode .bech32m (AddressType.dust.hrp undeployed) [1, 2, 3, 4, 5] ∧
    (∃ encoded, encodeAddress referenceCrate [1, 2, 3, 4, 5] .dust undeployed = some encoded ∧
      decodeAddress referenceCrate encoded .dust undeployed = .ok [1, 2, 3, 4, 5]) ∧
    ∀ decoded, decodeAddress referenceCrate dustAddress .dust undeployed = .ok decoded →
      encodeAddress referenceCrate decoded .dust undeployed = some (lower dustAddress) := by
  have written : dustAddress =
      Bech32.encode .bech32m (AddressType.dust.hrp undeployed) [1, 2, 3, 4, 5] := by
    decide +kernel
  refine ⟨written, (address_round_trip_iff referenceCrate referenceCrate_standard
    (fun _ _ => rfl) undeployed .dust [1, 2, 3, 4, 5] dustAddress).mpr ⟨?_, ?_⟩⟩
  · exact ⟨.inr ⟨by decide, by decide⟩, by decide⟩
  · intro hrp bytes _ is_hrp variant symbols spelled
    have lowercase : lower dustAddress = dustAddress := by decide
    rw [is_hrp, lowercase, written] at spelled
    obtain ⟨rfl, rfl⟩ := Bech32.text_injective spelled
    exact ⟨rfl, Bech32.canonical_toSymbols _⟩

def spaced : NetworkId Char.isUpper := ⟨"my net".toList, by decide, by decide⟩

/-- The same bytes under the checksum of Bech32. -/
def oldAddress : Text := "mn_dust_undeployed1qypqxpq94epn4l".toList

/-- A network id with a blank is accepted, and no address can be written for it. The
string with the older checksum is read as bytes it is not the encoding of. -/
theorem accepted_inputs_break_addresses :
    NetworkId.tryFrom "my net".toList = .ok spaced ∧
    encodeAddress referenceCrate [1, 2, 3, 4, 5] .dust spaced = none ∧
    decodeAddress referenceCrate oldAddress .dust undeployed = .ok [1, 2, 3, 4, 5] ∧
    encodeAddress referenceCrate [1, 2, 3, 4, 5] .dust undeployed = some dustAddress ∧
    dustAddress ≠ lower oldAddress := by
  refine ⟨rfl, ?_, ?_, ?_, ?_⟩
  · decide +kernel
  · decide +kernel
  · decide +kernel
  · decide

end MidnightIndexer.Guarantees.Addresses
