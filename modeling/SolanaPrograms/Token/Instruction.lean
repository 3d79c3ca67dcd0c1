import SolanaPrograms.Lib.Reader
import SolanaPrograms.Token.Processor

/-!
# Instruction data of the token program

`TokenInstruction::pack` and `TokenInstruction::unpack` of spl-token: one tag byte, then the fields.
The decoder ignores bytes behind the last field. `unpack_pack` says that every instruction is
decoded from its own encoding.
-/

namespace SolanaPrograms.Token

open Outcome Bytes SolanaPrograms.Runtime TokenError Pubkey List

/-! ## Fields -/

def AuthorityType.into : AuthorityType → UInt8
  | .mintTokens => 0
  | .freezeAccount => 1
  | .accountOwner => 2
  | .closeAccount => 3

def AuthorityType.from (index : UInt8) : Except Fault AuthorityType :=
  match index.toNat with
  | 0 => .ok .mintTokens
  | 1 => .ok .freezeAccount
  | 2 => .ok .accountOwner
  | 3 => .ok .closeAccount
  | _ => .error invalidInstruction

@[simp] theorem AuthorityType.from_into (t : AuthorityType) : AuthorityType.from t.into = .ok t := by
  cases t <;> rfl

def strAsBytes (s : List Char) : List UInt8 := s.flatMap String.utf8EncodeChar

def strFromUtf8 (bytes : List UInt8) : Option (List Char) :=
  bytes.toByteArray.utf8Decode?.map Array.toList

@[simp] theorem strFromUtf8_strAsBytes (s : List Char) : strFromUtf8 (strAsBytes s) = some s := by
  have hbytes : (strAsBytes s).toByteArray = s.utf8Encode := rfl
  rw [strFromUtf8, hbytes, utf8Decode?_utf8Encode, Option.map_some]

namespace TokenInstruction

def unpackPubkey : Reader Fault Pubkey := fun input => do
  let (key, rest) ← readSlice invalidInstruction 32 input
  return (.ofBytes key, rest)

def packPubkeyOption : Option Pubkey → List UInt8
  | some key => 1 :: key.bytes
  | none => [0]

def unpackPubkeyOption : Reader Fault (Option Pubkey)
  | [] => .error invalidInstruction
  | tag :: rest =>
    match tag.toNat with
    | 0 => .ok (none, rest)
    | 1 => do
      let (key, rest) ← unpackPubkey rest
      return (some key, rest)
    | _ => .error invalidInstruction

/-- An amount, with the error for a buffer that is too short. -/
def unpackAmount (e : Fault) : Reader Fault UInt64 := fun input => do
  let (amount, rest) ← readSlice e 8 input
  return (u64OfBytes amount, rest)

/-- The amount and the decimals of a checked instruction; `split_at` panics on a short buffer. -/
def unpackAmountDecimals (input : List UInt8) : Except Fault (UInt64 × UInt8) := do
  let (amount, rest) ← unpackAmount .panic input
  let (decimals, _) ← readByte invalidInstruction rest
  return (amount, decimals)

def unpackMintFields (input : List UInt8) : Except Fault (UInt8 × Pubkey × Option Pubkey) := do
  let (decimals, rest) ← readByte invalidInstruction input
  let (mintAuthority, rest) ← unpackPubkey rest
  let (freezeAuthority, _) ← unpackPubkeyOption rest
  return (decimals, mintAuthority, freezeAuthority)

theorem unpackPubkey_reads : Reads unpackPubkey bytes :=
  .of_slice _ length_eq ofBytes_bytes

theorem unpackPubkeyOption_reads : Reads unpackPubkeyOption packPubkeyOption := by
  intro o rest
  cases o with
  | none => rfl
  | some key =>
    show (unpackPubkey (key.bytes ++ rest) >>= fun p => pure (some p.1, p.2)) = _
    rw [unpackPubkey_reads, ok_bind]
    rfl

theorem unpackAmount_reads (e : Fault) : Reads (unpackAmount e) u64Bytes :=
  .of_slice e length_u64Bytes u64OfBytes_u64Bytes

@[simp] theorem unpackAmountDecimals_bytes (amount : UInt64) (decimals : UInt8) :
    unpackAmountDecimals (u64Bytes amount ++ [decimals]) = .ok (amount, decimals) := by
  rw [unpackAmountDecimals, unpackAmount_reads, ok_bind]
  rfl

@[simp] theorem unpackMintFields_bytes (decimals : UInt8) (mintAuthority : Pubkey)
    (freezeAuthority : Option Pubkey) :
    unpackMintFields (decimals :: (mintAuthority.bytes ++ packPubkeyOption freezeAuthority)) =
      .ok (decimals, mintAuthority, freezeAuthority) := by
  simp only [unpackMintFields, readByte_cons, ok_bind, unpackPubkey_reads mintAuthority,
    unpackPubkeyOption_reads.all]
  rfl

/-! ## Instructions -/

def pack : TokenInstruction → List UInt8
  | .initializeMint decimals mintAuthority freezeAuthority =>
    0 :: decimals :: (mintAuthority.bytes ++ packPubkeyOption freezeAuthority)
  | .initializeAccount => [1]
  | .initializeMultisig m => [2, m]
  | .transfer amount => 3 :: u64Bytes amount
  | .approve amount => 4 :: u64Bytes amount
  | .mintTo amount => 7 :: u64Bytes amount
  | .burn amount => 8 :: u64Bytes amount
  | .revoke => [5]
  | .setAuthority authorityType newAuthority =>
    6 :: authorityType.into :: packPubkeyOption newAuthority
  | .closeAccount => [9]
  | .freezeAccount => [10]
  | .thawAccount => [11]
  | .transferChecked amount decimals => 12 :: (u64Bytes amount ++ [decimals])
  | .approveChecked amount decimals => 13 :: (u64Bytes amount ++ [decimals])
  | .mintToChecked amount decimals => 14 :: (u64Bytes amount ++ [decimals])
  | .burnChecked amount decimals => 15 :: (u64Bytes amount ++ [decimals])
  | .initializeAccount2 owner => 16 :: owner.bytes
  | .syncNative => [17]
  | .initializeAccount3 owner => 18 :: owner.bytes
  | .initializeMultisig2 m => [19, m]
  | .initializeMint2 decimals mintAuthority freezeAuthority =>
    20 :: decimals :: (mintAuthority.bytes ++ packPubkeyOption freezeAuthority)
  | .getAccountDataSize => [21]
  | .initializeImmutableOwner => [22]
  | .amountToUiAmount amount => 23 :: u64Bytes amount
  | .uiAmountToAmount uiAmount => 24 :: strAsBytes uiAmount

def unpackFields (tag : Nat) (rest : List UInt8) : Except Fault TokenInstruction :=
  match tag with
  | 0 => do
    let (decimals, mintAuthority, freezeAuthority) ← unpackMintFields rest
    return .initializeMint decimals mintAuthority freezeAuthority
  | 1 => return .initializeAccount
  | 2 => do
    let (m, _) ← readByte invalidInstruction rest
    return .initializeMultisig m
  | 3 => do
    let (amount, _) ← unpackAmount invalidInstruction rest
    return .transfer amount
  | 4 => do
    let (amount, _) ← unpackAmount invalidInstruction rest
    return .approve amount
  | 5 => return .revoke
  | 6 => do
    let (t, rest) ← readByte invalidInstruction rest
    let authorityType ← AuthorityType.from t
    let (newAuthority, _) ← unpackPubkeyOption rest
    return .setAuthority authorityType newAuthority
  | 7 => do
    let (amount, _) ← unpackAmount invalidInstruction rest
    return .mintTo amount
  | 8 => do
    let (amount, _) ← unpackAmount invalidInstruction rest
    return .burn amount
  | 9 => return .closeAccount
  | 10 => return .freezeAccount
  | 11 => return .thawAccount
  | 12 => do
    let (amount, decimals) ← unpackAmountDecimals rest
    return .transferChecked amount decimals
  | 13 => do
    let (amount, decimals) ← unpackAmountDecimals rest
    return .approveChecked amount decimals
  | 14 => do
    let (amount, decimals) ← unpackAmountDecimals rest
    return .mintToChecked amount decimals
  | 15 => do
    let (amount, decimals) ← unpackAmountDecimals rest
    return .burnChecked amount decimals
  | 16 => do
    let (owner, _) ← unpackPubkey rest
    return .initializeAccount2 owner
  | 17 => return .syncNative
  | 18 => do
    let (owner, _) ← unpackPubkey rest
    return .initializeAccount3 owner
  | 19 => do
    let (m, _) ← readByte invalidInstruction rest
    return .initializeMultisig2 m
  | 20 => do
    let (decimals, mintAuthority, freezeAuthority) ← unpackMintFields rest
    return .initializeMint2 decimals mintAuthority freezeAuthority
  | 21 => return .getAccountDataSize
  | 22 => return .initializeImmutableOwner
  | 23 => do
    let (amount, _) ← unpackAmount .panic rest
    return .amountToUiAmount amount
  | 24 => do
    let uiAmount ← okOr (strFromUtf8 rest) invalidInstruction
    return .uiAmountToAmount uiAmount
  | _ => .error invalidInstruction

def unpack (input : List UInt8) : Except Fault TokenInstruction := do
  let (tag, rest) ← readByte invalidInstruction input
  unpackFields tag.toNat rest

theorem unpack_cons (tag : UInt8) (rest : List UInt8) :
    unpack (tag :: rest) = unpackFields tag.toNat rest := rfl

theorem unpack_pack (i : TokenInstruction) : unpack i.pack = .ok i := by
  cases i with
  | initializeMultisig | initializeMultisig2
  | initializeAccount | revoke | closeAccount | freezeAccount | thawAccount | syncNative
  | getAccountDataSize | initializeImmutableOwner => rfl
  | _ =>
    simp only [pack, unpack_cons]
    simp [unpackFields, (unpackAmount_reads _).all, unpackPubkey_reads.all,
      unpackPubkeyOption_reads.all, okOr, pure, Except.pure]

/-! ## Malformed data -/

/-- A payload of fewer than eight bytes behind a tag whose amount is cut off without a check of
the length. -/
def Truncated : List UInt8 → Prop
  | [] => False
  | tag :: rest => tag.toNat ∈ [12, 13, 14, 15, 23] ∧ rest.length < 8

section Malformed

variable {e : Fault} {input : List UInt8}

variable (he : invalidInstruction ≠ e)
include he

theorem avoids_authorityType (b : UInt8) : Avoids e (AuthorityType.from b) := by
  unfold AuthorityType.from
  split <;> simp [he]

theorem avoids_unpackPubkeyOption : Avoids e (unpackPubkeyOption input) := by
  unfold unpackPubkeyOption
  split
  · simp [he]
  · split <;> simp [unpackPubkey, he]

/-- Data that is not truncated is decoded or refused as an invalid instruction. -/
theorem avoids_unpack (h : ¬ Truncated input) : Avoids e (unpack input) := by
  cases input with
  | nil => exact avoids_error.mpr he
  | cons tag rest =>
    rw [unpack_cons]
    unfold Truncated at h
    unfold unpackFields
    split <;> simp_all [avoids_bind, unpackPubkey, unpackMintFields, unpackAmount,
      unpackAmountDecimals, avoids_authorityType he, avoids_unpackPubkeyOption he]

omit he

theorem unpack_of_truncated (h : Truncated input) : unpack input = .error .panic := by
  cases input with
  | nil => exact h.elim
  | cons tag rest =>
    obtain ⟨htag, hlen⟩ := h
    have hpanic : unpackAmount .panic rest = .error .panic := by
      simp [unpackAmount, readSlice, Nat.not_le.mpr hlen]
    rw [unpack_cons]
    simp only [mem_cons, not_mem_nil, or_false] at htag
    rcases htag with h | h | h | h | h <;>
      simp only [h, unpackFields, unpackAmountDecimals, hpanic, error_bind]

end Malformed

end TokenInstruction

end SolanaPrograms.Token
