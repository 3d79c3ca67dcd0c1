import SolanaPrograms.Token.Instruction
import SolanaPrograms.Token2022.Processor

/-!
# Instruction data of token-2022

`TokenInstruction::pack` and `TokenInstruction::unpack` of spl-token-2022 with the nested
`TransferFeeInstruction`. `Codec.TokenInstruction` is the enumeration of `instruction.rs`; the
extensions that decode their own data behind the tag are variants without fields there.

The instruction set extends the one of spl-token: `ofToken` maps every instruction to the variant of
the same name, and both programs encode it by the same bytes (`pack_ofToken`).
-/

namespace SolanaPrograms.Token2022

open Outcome Bytes SolanaPrograms.Runtime TokenError ProgramError List Pubkey
open Token (strAsBytes strFromUtf8)
open Token.TokenInstruction (packPubkeyOption unpackPubkey unpackPubkeyOption unpackMintFields
  unpackPubkey_reads unpackPubkeyOption_reads avoids_unpackPubkeyOption)

/-! ## Fields -/

def AuthorityType.into : AuthorityType → UInt8
  | .mintTokens => 0
  | .freezeAccount => 1
  | .accountOwner => 2
  | .closeAccount => 3
  | .transferFeeConfig => 4
  | .withheldWithdraw => 5

def AuthorityType.from (index : UInt8) : Except Fault AuthorityType :=
  match index.toNat with
  | 0 => .ok .mintTokens
  | 1 => .ok .freezeAccount
  | 2 => .ok .accountOwner
  | 3 => .ok .closeAccount
  | 4 => .ok .transferFeeConfig
  | 5 => .ok .withheldWithdraw
  | _ => .error invalidInstruction

@[simp] theorem AuthorityType.from_into (t : AuthorityType) :
    AuthorityType.from t.into = .ok t := by
  cases t <;> rfl

namespace Codec

def unpackU16 : Reader Fault UInt16 := fun input => do
  let (value, rest) ← readSlice invalidInstruction 2 input
  return (u16OfBytes value, rest)

def unpackU64 : Reader Fault UInt64 := fun input => do
  let (value, rest) ← readSlice invalidInstruction 8 input
  return (u64OfBytes value, rest)

def unpackAmountDecimals (input : List UInt8) : Except Fault (UInt64 × UInt8 × List UInt8) := do
  let (amount, rest) ← unpackU64 input
  let (decimals, rest) ← readByte invalidInstruction rest
  return (amount, decimals, rest)

def unpackExtensionTypes : List UInt8 → Except Fault (List ExtensionType)
  | [] => .ok []
  | [_] => .error invalidAccountData
  | b₀ :: b₁ :: rest => do
    let extensionType ← ExtensionType.ofBytes [b₀, b₁]
    let extensionTypes ← unpackExtensionTypes rest
    return extensionType :: extensionTypes

def packExtensionTypes (extensionTypes : List ExtensionType) : List UInt8 :=
  extensionTypes.flatMap ExtensionType.toBytes

theorem unpackU16_reads : Reads unpackU16 u16Bytes :=
  .of_slice _ length_u16Bytes u16OfBytes_u16Bytes

theorem unpackU64_reads : Reads unpackU64 u64Bytes :=
  .of_slice _ length_u64Bytes u64OfBytes_u64Bytes

theorem unpackAmountDecimals_append (amount : UInt64) (decimals : UInt8) (rest : List UInt8) :
    unpackAmountDecimals (u64Bytes amount ++ decimals :: rest) = .ok (amount, decimals, rest) := by
  rw [unpackAmountDecimals, unpackU64_reads, ok_bind]
  rfl

@[simp] theorem unpackExtensionTypes_pack (extensionTypes : List ExtensionType) :
    unpackExtensionTypes (packExtensionTypes extensionTypes) = .ok extensionTypes := by
  induction extensionTypes with
  | nil => rfl
  | cons t ts ih =>
    obtain ⟨b₀, b₁, hb⟩ : ∃ b₀ b₁, t.toBytes = [b₀, b₁] := ⟨_, _, rfl⟩
    have ht : ExtensionType.ofBytes [b₀, b₁] = .ok t := hb ▸ ExtensionType.ofBytes_toBytes t
    rw [packExtensionTypes, flatMap_cons, hb]
    show (ExtensionType.ofBytes [b₀, b₁] >>= fun t => unpackExtensionTypes (packExtensionTypes ts)
      >>= fun ts => pure (t :: ts)) = _
    rw [ht, ok_bind, ih, ok_bind]
    rfl

/-! ## Transfer fee instructions -/

end Codec

namespace TransferFeeInstruction

open Codec

def pack : TransferFeeInstruction → List UInt8
  | .initializeTransferFeeConfig transferFeeConfigAuthority withdrawWithheldAuthority
      transferFeeBasisPoints maximumFee =>
    0 :: (packPubkeyOption transferFeeConfigAuthority ++
      (packPubkeyOption withdrawWithheldAuthority ++
        (u16Bytes transferFeeBasisPoints ++ u64Bytes maximumFee)))
  | .transferCheckedWithFee amount decimals fee =>
    1 :: (u64Bytes amount ++ decimals :: u64Bytes fee)
  | .withdrawWithheldTokensFromMint => [2]
  | .withdrawWithheldTokensFromAccounts numTokenAccounts => [3, numTokenAccounts]
  | .harvestWithheldTokensToMint => [4]
  | .setTransferFee transferFeeBasisPoints maximumFee =>
    5 :: (u16Bytes transferFeeBasisPoints ++ u64Bytes maximumFee)

def unpackFields (tag : Nat) : Reader Fault TransferFeeInstruction := fun rest =>
  match tag with
  | 0 => do
    let (transferFeeConfigAuthority, rest) ← unpackPubkeyOption rest
    let (withdrawWithheldAuthority, rest) ← unpackPubkeyOption rest
    let (transferFeeBasisPoints, rest) ← unpackU16 rest
    let (maximumFee, rest) ← unpackU64 rest
    return (.initializeTransferFeeConfig transferFeeConfigAuthority withdrawWithheldAuthority
      transferFeeBasisPoints maximumFee, rest)
  | 1 => do
    let (amount, decimals, rest) ← unpackAmountDecimals rest
    let (fee, rest) ← unpackU64 rest
    return (.transferCheckedWithFee amount decimals fee, rest)
  | 2 => return (.withdrawWithheldTokensFromMint, rest)
  | 3 => do
    let (numTokenAccounts, rest) ← readByte invalidInstruction rest
    return (.withdrawWithheldTokensFromAccounts numTokenAccounts, rest)
  | 4 => return (.harvestWithheldTokensToMint, rest)
  | 5 => do
    let (transferFeeBasisPoints, rest) ← unpackU16 rest
    let (maximumFee, rest) ← unpackU64 rest
    return (.setTransferFee transferFeeBasisPoints maximumFee, rest)
  | _ => .error invalidInstruction

def unpack : Reader Fault TransferFeeInstruction := fun input => do
  let (tag, rest) ← readByte invalidInstruction input
  unpackFields tag.toNat rest

theorem unpack_cons (tag : UInt8) (rest : List UInt8) :
    unpack (tag :: rest) = unpackFields tag.toNat rest := rfl

theorem unpack_reads : Reads unpack pack := by
  intro i rest
  cases i with
  | initializeTransferFeeConfig a b p m =>
    simp only [pack, cons_append, append_assoc, unpack_cons]
    simp [unpackFields, unpackPubkeyOption_reads a, unpackPubkeyOption_reads b, unpackU16_reads p,
      unpackU64_reads m, pure, Except.pure]
  | transferCheckedWithFee _ _ fee =>
    simp only [pack, cons_append, append_assoc, unpack_cons]
    simp [unpackFields, unpackAmountDecimals_append, unpackU64_reads fee, pure, Except.pure]
  | setTransferFee p m =>
    simp only [pack, cons_append, append_assoc, unpack_cons]
    simp [unpackFields, unpackU16_reads p, unpackU64_reads m, pure, Except.pure]
  | withdrawWithheldTokensFromMint | withdrawWithheldTokensFromAccounts
  | harvestWithheldTokensToMint => rfl

end TransferFeeInstruction

/-! ## Instructions -/

namespace Codec

inductive TokenInstruction
  | initializeMint (decimals : UInt8) (mintAuthority : Pubkey) (freezeAuthority : Option Pubkey)
  | initializeAccount
  | initializeMultisig (m : UInt8)
  | transfer (amount : UInt64)
  | approve (amount : UInt64)
  | revoke
  | setAuthority (authorityType : AuthorityType) (newAuthority : Option Pubkey)
  | mintTo (amount : UInt64)
  | burn (amount : UInt64)
  | closeAccount
  | freezeAccount
  | thawAccount
  | transferChecked (amount : UInt64) (decimals : UInt8)
  | approveChecked (amount : UInt64) (decimals : UInt8)
  | mintToChecked (amount : UInt64) (decimals : UInt8)
  | burnChecked (amount : UInt64) (decimals : UInt8)
  | initializeAccount2 (owner : Pubkey)
  | syncNative
  | initializeAccount3 (owner : Pubkey)
  | initializeMultisig2 (m : UInt8)
  | initializeMint2 (decimals : UInt8) (mintAuthority : Pubkey) (freezeAuthority : Option Pubkey)
  | getAccountDataSize (extensionTypes : List ExtensionType)
  | initializeImmutableOwner
  | amountToUiAmount (amount : UInt64)
  | uiAmountToAmount (uiAmount : List Char)
  | initializeMintCloseAuthority (closeAuthority : Option Pubkey)
  | transferFeeExtension (instruction : TransferFeeInstruction)
  | confidentialTransferExtension
  | defaultAccountStateExtension
  | reallocate (extensionTypes : List ExtensionType)
  | memoTransferExtension
  | createNativeMint
deriving DecidableEq

namespace TokenInstruction

def pack : TokenInstruction → List UInt8
  | .initializeMint decimals mintAuthority freezeAuthority =>
    0 :: decimals :: (mintAuthority.bytes ++ packPubkeyOption freezeAuthority)
  | .initializeAccount => [1]
  | .initializeMultisig m => [2, m]
  | .transfer amount => 3 :: u64Bytes amount
  | .approve amount => 4 :: u64Bytes amount
  | .mintTo amount => 7 :: u64Bytes amount
  | .burn amount => 8 :: u64Bytes amount
  | .revoke => [5]
  | .setAuthority authorityType newAuthority =>
    6 :: authorityType.into :: packPubkeyOption newAuthority
  | .closeAccount => [9]
  | .freezeAccount => [10]
  | .thawAccount => [11]
  | .transferChecked amount decimals => 12 :: (u64Bytes amount ++ [decimals])
  | .approveChecked amount decimals => 13 :: (u64Bytes amount ++ [decimals])
  | .mintToChecked amount decimals => 14 :: (u64Bytes amount ++ [decimals])
  | .burnChecked amount decimals => 15 :: (u64Bytes amount ++ [decimals])
  | .initializeAccount2 owner => 16 :: owner.bytes
  | .syncNative => [17]
  | .initializeAccount3 owner => 18 :: owner.bytes
  | .initializeMultisig2 m => [19, m]
  | .initializeMint2 decimals mintAuthority freezeAuthority =>
    20 :: decimals :: (mintAuthority.bytes ++ packPubkeyOption freezeAuthority)
  | .getAccountDataSize extensionTypes => 21 :: packExtensionTypes extensionTypes
  | .initializeImmutableOwner => [22]
  | .amountToUiAmount amount => 23 :: u64Bytes amount
  | .uiAmountToAmount uiAmount => 24 :: strAsBytes uiAmount
  | .initializeMintCloseAuthority closeAuthority => 25 :: packPubkeyOption closeAuthority
  | .transferFeeExtension instruction => 26 :: instruction.pack
  | .confidentialTransferExtension => [27]
  | .defaultAccountStateExtension => [28]
  | .reallocate extensionTypes => 29 :: packExtensionTypes extensionTypes
  | .memoTransferExtension => [30]
  | .createNativeMint => [31]

def unpackFields (tag : Nat) (rest : List UInt8) : Except Fault TokenInstruction :=
  match tag with
  | 0 => do
    let (decimals, mintAuthority, freezeAuthority) ← unpackMintFields rest
    return .initializeMint decimals mintAuthority freezeAuthority
  | 1 => return .initializeAccount
  | 2 => do
    let (m, _) ← readByte invalidInstruction rest
    return .initializeMultisig m
  | 3 => do
    let (amount, _) ← unpackU64 rest
    return .transfer amount
  | 4 => do
    let (amount, _) ← unpackU64 rest
    return .approve amount
  | 5 => return .revoke
  | 6 => do
    let (t, rest) ← readByte invalidInstruction rest
    let authorityType ← AuthorityType.from t
    let (newAuthority, _) ← unpackPubkeyOption rest
    return .setAuthority authorityType newAuthority
  | 7 => do
    let (amount, _) ← unpackU64 rest
    return .mintTo amount
  | 8 => do
    let (amount, _) ← unpackU64 rest
    return .burn amount
  | 9 => return .closeAccount
  | 10 => return .freezeAccount
  | 11 => return .thawAccount
  | 12 => do
    let (amount, decimals, _) ← unpackAmountDecimals rest
    return .transferChecked amount decimals
  | 13 => do
    let (amount, decimals, _) ← unpackAmountDecimals rest
    return .approveChecked amount decimals
  | 14 => do
    let (amount, decimals, _) ← unpackAmountDecimals rest
    return .mintToChecked amount decimals
  | 15 => do
    let (amount, decimals, _) ← unpackAmountDecimals rest
    return .burnChecked amount decimals
  | 16 => do
    let (owner, _) ← unpackPubkey rest
    return .initializeAccount2 owner
  | 17 => return .syncNative
  | 18 => do
    let (owner, _) ← unpackPubkey rest
    return .initializeAccount3 owner
  | 19 => do
    let (m, _) ← readByte invalidInstruction rest
    return .initializeMultisig2 m
  | 20 => do
    let (decimals, mintAuthority, freezeAuthority) ← unpackMintFields rest
    return .initializeMint2 decimals mintAuthority freezeAuthority
  | 21 => do
    let extensionTypes ← unpackExtensionTypes rest
    return .getAccountDataSize extensionTypes
  | 22 => return .initializeImmutableOwner
  | 23 => do
    let (amount, _) ← unpackU64 rest
    return .amountToUiAmount amount
  | 24 => do
    let uiAmount ← okOr (strFromUtf8 rest) invalidInstruction
    return .uiAmountToAmount uiAmount
  | 25 => do
    let (closeAuthority, _) ← unpackPubkeyOption rest
    return .initializeMintCloseAuthority closeAuthority
  | 26 => do
    let (instruction, _) ← TransferFeeInstruction.unpack rest
    return .transferFeeExtension instruction
  | 27 => return .confidentialTransferExtension
  | 28 => return .defaultAccountStateExtension
  | 29 => do
    let extensionTypes ← unpackExtensionTypes rest
    return .reallocate extensionTypes
  | 30 => return .memoTransferExtension
  | 31 => return .createNativeMint
  | _ => .error invalidInstruction

def unpack (input : List UInt8) : Except Fault TokenInstruction := do
  let (tag, rest) ← readByte invalidInstruction input
  unpackFields tag.toNat rest

theorem unpack_cons (tag : UInt8) (rest : List UInt8) :
    unpack (tag :: rest) = unpackFields tag.toNat rest := rfl

theorem unpack_pack (i : TokenInstruction) : unpack i.pack = .ok i := by
  cases i with
  | initializeMultisig | initializeMultisig2
  | initializeAccount | revoke | closeAccount | freezeAccount | thawAccount | syncNative
  | initializeImmutableOwner | confidentialTransferExtension | defaultAccountStateExtension
  | memoTransferExtension | createNativeMint => rfl
  | _ =>
    simp only [pack, unpack_cons]
    simp [unpackFields, unpackU64_reads.all, unpackAmountDecimals_append, unpackPubkey_reads.all,
      unpackPubkeyOption_reads.all, TransferFeeInstruction.unpack_reads.all, okOr, pure,
      Except.pure]

/-! ## Token-2022 is a superset -/

def authorityTypeOfToken : Token.AuthorityType → AuthorityType
  | .mintTokens => .mintTokens
  | .freezeAccount => .freezeAccount
  | .accountOwner => .accountOwner
  | .closeAccount => .closeAccount

/-- The instruction of the same name with the same fields. -/
def ofToken : Token.TokenInstruction → TokenInstruction
  | .initializeMint decimals mintAuthority freezeAuthority =>
    .initializeMint decimals mintAuthority freezeAuthority
  | .initializeAccount => .initializeAccount
  | .initializeMultisig m => .initializeMultisig m
  | .transfer amount => .transfer amount
  | .approve amount => .approve amount
  | .revoke => .revoke
  | .setAuthority authorityType newAuthority =>
    .setAuthority (authorityTypeOfToken authorityType) newAuthority
  | .mintTo amount => .mintTo amount
  | .burn amount => .burn amount
  | .closeAccount => .closeAccount
  | .freezeAccount => .freezeAccount
  | .thawAccount => .thawAccount
  | .transferChecked amount decimals => .transferChecked amount decimals
  | .approveChecked amount decimals => .approveChecked amount decimals
  | .mintToChecked amount decimals => .mintToChecked amount decimals
  | .burnChecked amount decimals => .burnChecked amount decimals
  | .initializeAccount2 owner => .initializeAccount2 owner
  | .syncNative => .syncNative
  | .initializeAccount3 owner => .initializeAccount3 owner
  | .initializeMultisig2 m => .initializeMultisig2 m
  | .initializeMint2 decimals mintAuthority freezeAuthority =>
    .initializeMint2 decimals mintAuthority freezeAuthority
  | .getAccountDataSize => .getAccountDataSize []
  | .initializeImmutableOwner => .initializeImmutableOwner
  | .amountToUiAmount amount => .amountToUiAmount amount
  | .uiAmountToAmount uiAmount => .uiAmountToAmount uiAmount

/-- Both programs encode an instruction by the same bytes. -/
theorem pack_ofToken (i : Token.TokenInstruction) : (ofToken i).pack = i.pack := by
  cases i with
  | setAuthority authorityType => cases authorityType <;> rfl
  | _ => rfl

/-- **Instruction codec.** Each program decodes what it encodes, and token-2022 decodes what
spl-token encodes as the instruction of the same name. -/
theorem instruction_codec :
    (∀ i : Token.TokenInstruction, Token.TokenInstruction.unpack i.pack = .ok i) ∧
    (∀ i : TokenInstruction, unpack i.pack = .ok i) ∧
    ∀ i : Token.TokenInstruction, unpack i.pack = .ok (ofToken i) := by
  refine ⟨Token.TokenInstruction.unpack_pack, unpack_pack, fun i => ?_⟩
  rw [← pack_ofToken]
  exact unpack_pack (ofToken i)

end TokenInstruction

/-! ## Malformed data -/

section Malformed

variable {e : Fault} {input : List UInt8}

theorem avoids_authorityType (he : invalidInstruction ≠ e) (b : UInt8) :
    Avoids e (AuthorityType.from b) := by
  unfold AuthorityType.from
  split <;> simp [he]

theorem avoids_unpackExtensionTypes (he : invalidAccountData ≠ e) :
    Avoids e (unpackExtensionTypes input) := by
  fun_induction unpackExtensionTypes input with
  | case1 => exact avoids_ok
  | case2 => exact avoids_error.mpr he
  | case3 b₀ b₁ rest ih =>
    have htype : Avoids e (ExtensionType.ofBytes [b₀, b₁]) := by
      unfold ExtensionType.ofBytes
      split <;> simp [he]
    simp [avoids_bind, htype, ih]

theorem avoids_transferFee (he : invalidInstruction ≠ e) :
    Avoids e (TransferFeeInstruction.unpack input) := by
  cases input with
  | nil => exact avoids_error.mpr he
  | cons tag rest =>
    rw [TransferFeeInstruction.unpack_cons, TransferFeeInstruction.unpackFields.eq_def]
    split <;> simp [avoids_bind, unpackU16, unpackU64, unpackAmountDecimals, he,
      avoids_unpackPubkeyOption he]

theorem avoids_unpack (he : invalidInstruction ≠ e) (hdata : invalidAccountData ≠ e) :
    Avoids e (TokenInstruction.unpack input) := by
  cases input with
  | nil => exact avoids_error.mpr he
  | cons tag rest =>
    -- both programs number this error alike
    have he' : (Token.TokenError.invalidInstruction : Fault) ≠ e := he
    rw [TokenInstruction.unpack_cons, TokenInstruction.unpackFields.eq_def]
    split <;> simp [avoids_bind, unpackPubkey, unpackMintFields, unpackU64, unpackAmountDecimals,
      he, he', avoids_authorityType he, avoids_unpackPubkeyOption he, avoids_transferFee he,
      avoids_unpackExtensionTypes hdata]

end Malformed

/-- Both programs decode the data, or refuse it as an invalid instruction or by a conversion. -/
def DecodesCleanly (input : List UInt8) : Prop :=
  (∀ e, Token.TokenInstruction.unpack input = .error e →
    e = (Token.TokenError.invalidInstruction : Fault)) ∧
  ∀ e, TokenInstruction.unpack input = .error e →
    e = invalidInstruction ∨ e = invalidAccountData

open Token.TokenInstruction in
/-- **Decoding panics on truncated amounts, and on nothing else.** -/
theorem decodesCleanly_iff (input : List UInt8) : DecodesCleanly input ↔ ¬ Truncated input := by
  constructor
  · rintro ⟨htoken, -⟩ htrunc
    cases htoken _ (unpack_of_truncated htrunc)
  · intro h
    refine ⟨fun e he => ?_, fun e he => ?_⟩
    · by_contra hne
      exact Token.TokenInstruction.avoids_unpack (.symm hne) h he
    · by_contra hne
      rw [not_or] at hne
      exact avoids_unpack (.symm hne.1) (.symm hne.2) he

/-- `TransferChecked` without an amount. -/
theorem not_decodesCleanly : ¬ ∀ input, DecodesCleanly input := by
  intro h
  cases (h [12]).1 .panic rfl

end Codec

end SolanaPrograms.Token2022
