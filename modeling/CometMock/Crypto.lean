import CometMock.Basic

/-!
Keys, digests and signatures, modelled symbolically. A digest records what was hashed and a
signature records who signed which bytes, so hashing is collision-free and a signature verifies
exactly when the matching key signed the same sign-bytes. Public keys are the two kinds CometBFT's
`crypto/encoding` accepts.
-/

namespace CometMock

/-- A CometBFT public key (`crypto.PubKey`) of one of the two kinds `PubKeyFromProto` decodes. -/
inductive PubKey where
  | ed25519 (bytes : Bytes)
  | secp256k1 (bytes : Bytes)
  deriving Repr, DecidableEq

/-- The protobuf `crypto.PublicKey`: a `oneof` that may also be left unset. -/
inductive PublicKey where
  | ed25519 (bytes : Bytes)
  | secp256k1 (bytes : Bytes)
  | unset
  deriving Repr, DecidableEq

namespace PubKey

/-- `PubKey.Type()`. -/
def type : PubKey → String
  | .ed25519 _ => "ed25519"
  | .secp256k1 _ => "secp256k1"

/--
`PubKey.Address()`, a 20-byte truncated hash of the key. The model takes the first 20 key bytes
(zero-padded), which keeps the address length that `Vote.ValidateBasic` checks.
-/
def address : PubKey → Bytes
  | .ed25519 b | .secp256k1 b => (b ++ List.replicate 20 0).take 20

/-- `cryptoenc.PubKeyToProto`. -/
def toProto : PubKey → PublicKey
  | .ed25519 b => .ed25519 b
  | .secp256k1 b => .secp256k1 b

end PubKey

/-- `cryptoenc.PubKeyFromProto`: decodes a key of a known kind and the right size. -/
def pubKeyFromProto : PublicKey → Except String PubKey
  | .ed25519 b =>
    if b.length = 32 then .ok (.ed25519 b)
    else .error "invalid size for PubKeyEd25519"
  | .secp256k1 b =>
    if b.length = 33 then .ok (.secp256k1 b)
    else .error "invalid size for PubKeySecp256k1"
  | .unset => .error "fromproto: key type is not supported"

/-- A hash value. Each constructor records the data CometBFT feeds to the hash function. -/
inductive Digest where
  | none
  | validators (vals : List (PubKey × Int))
  | params (maxBytes maxGas : Int)
  | txs (txs : List Bytes)
  | results (rs : List (Nat × Bytes × Int × Int))
  | header (chainId : String) (appVersion : Nat) (height time : Int)
      (lastBlock : Digest) (lastPartsTotal : Nat) (lastParts : Digest)
      (data validators nextValidators consensus : Digest) (appHash : Bytes)
      (lastResults : Digest) (proposer : Bytes)
  | parts (block : Digest)
  deriving Repr, DecidableEq

/-- `types.PartSetHeader`. -/
structure PartSetHeader where
  total : Nat
  hash : Digest
  deriving Repr, DecidableEq

/-- `types.BlockID`. -/
structure BlockID where
  hash : Digest
  partSetHeader : PartSetHeader
  deriving Repr, DecidableEq

namespace BlockID

/-- The zero `BlockID`, which nil votes and absent commit signatures carry. -/
def zero : BlockID := ⟨.none, ⟨0, .none⟩⟩

/-- `BlockID.IsZero`. -/
def isZero (b : BlockID) : Bool :=
  b.hash == .none && b.partSetHeader.total == 0 && b.partSetHeader.hash == .none

/-- `BlockID.IsComplete`: both hashes are full-size and the part set is not empty. -/
def isComplete (b : BlockID) : Bool :=
  b.hash != .none && 0 < b.partSetHeader.total && b.partSetHeader.hash != .none

end BlockID

/-- `cmtproto.SignedMsgType`. -/
inductive SignedMsgType where
  | unknown
  | prevote
  | precommit
  | proposal
  deriving Repr, DecidableEq

/-- The canonical sign-bytes of a vote, of its extension, or of a proposal. -/
inductive SignBytes where
  | vote (chainId : String) (type : SignedMsgType) (height round : Int) (blockId : BlockID)
      (timestamp : Int)
  | voteExtension (chainId : String) (height round : Int) (extension : Bytes)
  | proposal (chainId : String) (height round polRound : Int) (blockId : BlockID)
      (timestamp : Int)
  deriving Repr, DecidableEq

/-- A signature: the key that signed and the bytes it signed. -/
structure Sig where
  signer : PubKey
  msg : SignBytes
  deriving Repr, DecidableEq

/--
`PubKey.VerifySignature`. A signature field is a Go byte slice, `none` when it was never set;
an empty signature never verifies.
-/
def PubKey.verifySignature (pk : PubKey) (msg : SignBytes) (sig : Option Sig) : Bool :=
  sig == some ⟨pk, msg⟩

/-- A `types.PrivValidator`, which signs with the private key of `pubKey`. It keeps no last-sign
state, so unlike `FilePV` it never refuses to sign again at a height it has signed. -/
structure PrivValidator where
  pubKey : PubKey
  deriving Repr, DecidableEq

/-- The signature a priv validator produces over `msg`. -/
def PrivValidator.sign (pv : PrivValidator) (msg : SignBytes) : Option Sig :=
  some ⟨pv.pubKey, msg⟩

@[simp]
theorem PubKey.verifySignature_none (pk : PubKey) (msg : SignBytes) :
    pk.verifySignature msg none = false := rfl

end CometMock
