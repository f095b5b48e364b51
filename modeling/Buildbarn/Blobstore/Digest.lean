import Buildbarn.Io
import Buildbarn.Text

/-! Digests as the blob store sees them: the protocol's `Digest` (hexadecimal hash text and a
size), `util.Digest` (instance name, hash bytes, size), `validateDigest`, and the pieces of `util`
this source calls but does not contain. -/

namespace Buildbarn.Blobstore

/-- `remoteexecution.Digest`: the hash as hexadecimal text, and the size. -/
structure Digest where
  hash : String
  sizeBytes : Int
  deriving DecidableEq, Repr

/-- `util.Digest`: the instance name, the hash bytes, and an `int64` size. -/
structure UtilDigest where
  instanceName : String
  hash : List UInt8
  sizeBytes : Int
  sizeBytes_int64 : -2 ^ 63 ≤ sizeBytes ∧ sizeBytes < 2 ^ 63
  deriving DecidableEq

/-- `util.DigestFormatFromLength`, which this source calls but does not contain: the hash family
(the `Sum` of a fresh `hash.Hash` after writing the given bytes) for each length of hexadecimal
hash it recognises. A family recognised at length `n` has sums of `n / 2` bytes, as hexadecimal
hashes of its sums have `n` digits. -/
structure DigestFormats where
  fromLength : Nat → Except Error (List UInt8 → List UInt8)
  length_sum : ∀ n family bs, fromLength n = .ok family → 2 * (family bs).length = n

/-- The character test of `validateDigest`'s loop. -/
def isNonHexDigit (c : Char) : Bool := (c < '0' || c > '9') && (c < 'a' || c > 'f')

/-- `validateDigest`: a recognised hash length, lowercase hexadecimal digits only (uppercase would
give a second spelling of the same hash), and a non-negative size. -/
def validateDigest (formats : DigestFormats) (digest : Digest) :
    Except Error (List UInt8 → List UInt8) :=
  match formats.fromLength digest.hash.utf8ByteSize with
  | .error err => .error err
  | .ok family =>
    match digest.hash.toList.find? isNonHexDigit with
    | some c =>
      .error (.status .invalidArgument ("Non-hexadecimal character in digest hash: " ++ formatRune c))
    | none =>
      if digest.sizeBytes < 0 then
        .error (.status .invalidArgument
          ("Invalid digest size: " ++ formatInt digest.sizeBytes ++ " bytes"))
      else .ok family

theorem isNonHexDigit_eq_false {c : Char} : isNonHexDigit c = false ↔ isLowerHexDigit c := by
  simp only [isNonHexDigit, isLowerHexDigit, char_le_iff, char_lt_iff, gt_iff_lt]
  simp
  omega

theorem validateDigest_ok {formats : DigestFormats} {digest : Digest}
    {family : List UInt8 → List UInt8} (h : validateDigest formats digest = .ok family) :
    formats.fromLength digest.hash.toList.length = .ok family ∧
      (∀ c ∈ digest.hash.toList, isLowerHexDigit c) ∧ 0 ≤ digest.sizeBytes := by
  unfold validateDigest at h
  split at h
  · cases h
  · rename_i family' hf
    split at h
    · cases h
    · rename_i hfind
      split_ifs at h with hs
      cases h
      have hhex : ∀ c ∈ digest.hash.toList, isLowerHexDigit c := fun c hc =>
        isNonHexDigit_eq_false.mp (by simpa using List.find?_eq_none.mp hfind c hc)
      refine ⟨?_, hhex, by omega⟩
      rwa [← utf8ByteSize_of_lt (fun c hc => toNat_lt_of_isLowerHexDigit (hhex c hc))]

theorem sum_eq_hexDecode_iff {formats : DigestFormats} {digest : Digest}
    {family : List UInt8 → List UInt8} (h : validateDigest formats digest = .ok family)
    (bs : List UInt8) :
    family bs = hexDecodeString digest.hash ↔ hexEncodeToString (family bs) = digest.hash := by
  obtain ⟨hlen, hhex, -⟩ := validateDigest_ok h
  have heven := formats.length_sum _ _ bs hlen
  constructor
  · intro e
    rw [e, hexEncodeToString, hexDecodeString, hexEncode_decode _ hhex (by omega)]
    rfl
  · intro e
    rw [← e, hexDecode_encode]

/-- `uuid.UUID`: sixteen bytes. -/
structure UUID where
  bytes : List UInt8
  length_bytes : bytes.length = 16
  deriving DecidableEq

/-- `UUID.String()`: the hexadecimal form in groups of 8, 4, 4, 4 and 12 digits. -/
def UUID.toString (u : UUID) : String :=
  hexEncodeToString (u.bytes.take 4) ++ "-" ++ hexEncodeToString ((u.bytes.drop 4).take 2) ++ "-" ++
    hexEncodeToString ((u.bytes.drop 6).take 2) ++ "-" ++
    hexEncodeToString ((u.bytes.drop 8).take 2) ++ "-" ++ hexEncodeToString (u.bytes.drop 10)

/-- `util.DigestKeyFormat`. -/
inductive DigestKeyFormat
  | withoutInstance
  | withInstance
  deriving DecidableEq, Repr

/-- Modelled from the spec: `util.Digest.GetKey`, which this source calls but does not contain.
The design gives the two canonical keys: "with instance" (instance + ":" + hash + ":" + size) and
"without instance" (hash + ":" + size), the hash in lowercase hexadecimal. -/
def UtilDigest.getKey (d : UtilDigest) : DigestKeyFormat → String
  | .withoutInstance => hexEncodeToString d.hash ++ ":" ++ formatInt d.sizeBytes
  | .withInstance =>
    d.instanceName ++ ":" ++ hexEncodeToString d.hash ++ ":" ++ formatInt d.sizeBytes

/-- Modelled from the spec: `util.Digest.GetRawDigest`, which this source calls but does not
contain: the hash as lowercase hexadecimal text, and the size. -/
def UtilDigest.getRawDigest (d : UtilDigest) : Digest := ⟨hexEncodeToString d.hash, d.sizeBytes⟩

end Buildbarn.Blobstore
