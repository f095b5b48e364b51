import Buildbarn.Blobstore.ChecksumValidatingReader

/-! `merkleBlobAccess`, the integrity adapter, over any backend: it validates every digest
it is given and puts a `checksumValidatingReader` in front of every blob it reads or writes. -/

namespace Buildbarn.Blobstore

namespace MerkleBlobAccess
open ChecksumValidatingReader (start)
variable {σ ρ τ : Type}

/-- `merkleBlobAccess.Get` over a backend whose `Get` returns readers with states `σ`: an error
reader for an invalid digest, else a verifying reader over the backend's reader whose invalidator
deletes the blob. -/
def get (formats : DigestFormats) (backendGet : String → Digest → σ) (instanceName : String)
    (digest : Digest) : Except Error (ChecksumValidatingReader σ) :=
  match validateDigest formats digest with
  | .error err => .error err
  | .ok digestFormat =>
    .ok (start (backendGet instanceName digest) (hexDecodeString digest.hash) digestFormat
      digest.sizeBytes (.delete instanceName digest) .internal)

/-- `merkleBlobAccess.Put`. The backend's `Put` is given the verifying reader over `r` and answers
with its error, its new state and the reader's state (`none` while it has not finished reading);
the caller gets back the state of its own reader. -/
def put (formats : DigestFormats) (close : ρ → ρ)
    (backendPut : String → Digest → Int → ChecksumValidatingReader ρ →
      Option (Option Error × τ × ChecksumValidatingReader ρ))
    (backend : τ) (instanceName : String) (digest : Digest) (sizeBytes : Int) (r : ρ) :
    Outcome (Option (Option Error × τ × ρ)) :=
  match validateDigest formats digest with
  | .error err => .returns (some (some err, backend, close r))
  | .ok digestFormat =>
    if digest.sizeBytes ≠ sizeBytes then .aborts "Called into CAS to store non-CAS object"
    else
      .returns ((backendPut instanceName digest digest.sizeBytes
        (start r (hexDecodeString digest.hash) digestFormat digest.sizeBytes .noop
          .invalidArgument)).map fun (err, backend, r) => (err, backend, r.readCloser))

/-- `merkleBlobAccess.Delete`. -/
def delete (formats : DigestFormats) (backendDelete : String → Digest → Option Error × τ)
    (backend : τ) (instanceName : String) (digest : Digest) : Option Error × τ :=
  match validateDigest formats digest with
  | .error err => (some err, backend)
  | .ok _ => backendDelete instanceName digest

/-- `merkleBlobAccess.FindMissing`: the first invalid digest's error, else the backend's answer. -/
def findMissing (formats : DigestFormats)
    (backendFindMissing : String → List Digest → Except Error (List Digest))
    (instanceName : String) (digests : List Digest) : Except Error (List Digest) :=
  match digests.mapM (validateDigest formats) with
  | .error err => .error err
  | .ok _ => backendFindMissing instanceName digests

theorem get_of_valid {formats : DigestFormats} {digest : Digest}
    {digestFormat : List UInt8 → List UInt8} (h : validateDigest formats digest = .ok digestFormat)
    (backendGet : String → Digest → σ) (instanceName : String) :
    get formats backendGet instanceName digest =
      .ok (start (backendGet instanceName digest) (hexDecodeString digest.hash) digestFormat
        digest.sizeBytes (.delete instanceName digest) .internal) := by
  simp only [get, h]

theorem put_of_invalid {formats : DigestFormats} {digest : Digest} {err : Error}
    (h : validateDigest formats digest = .error err) (close : ρ → ρ)
    (backendPut : String → Digest → Int → ChecksumValidatingReader ρ →
      Option (Option Error × τ × ChecksumValidatingReader ρ))
    (backend : τ) (instanceName : String) (sizeBytes : Int) (r : ρ) :
    put formats close backendPut backend instanceName digest sizeBytes r =
      .returns (some (some err, backend, close r)) := by
  simp only [put, h]

theorem put_of_valid {formats : DigestFormats} {digest : Digest}
    {digestFormat : List UInt8 → List UInt8} (h : validateDigest formats digest = .ok digestFormat)
    (close : ρ → ρ)
    (backendPut : String → Digest → Int → ChecksumValidatingReader ρ →
      Option (Option Error × τ × ChecksumValidatingReader ρ))
    (backend : τ) (instanceName : String) (r : ρ) :
    put formats close backendPut backend instanceName digest digest.sizeBytes r =
      .returns ((backendPut instanceName digest digest.sizeBytes
        (start r (hexDecodeString digest.hash) digestFormat digest.sizeBytes .noop
          .invalidArgument)).map fun (err, backend, r) => (err, backend, r.readCloser)) := by
  simp only [put, h, ne_eq, not_true_eq_false, if_false]

theorem findMissing_eq_ok {formats : DigestFormats}
    {backendFindMissing : String → List Digest → Except Error (List Digest)}
    {instanceName : String} {digests missing : List Digest}
    (h : findMissing formats backendFindMissing instanceName digests = .ok missing) :
    (∀ d ∈ digests, ∃ digestFormat, validateDigest formats d = .ok digestFormat) ∧
      backendFindMissing instanceName digests = .ok missing := by
  unfold findMissing at h
  split at h
  · cases h
  · rename_i hv
    exact ⟨exists_ok_of_mapM hv, h⟩

end MerkleBlobAccess

open ChecksumValidatingReader in
/-- A caller that reads through the verifying reader until the first error, whatever the stream
underneath and the buffers: while no read has failed `sizeLeft` is the expected size less the bytes
returned, and never negative; the bytes are a prefix of the stream, of at most the expected size.
Read to the end, the run ends in `io.EOF` exactly when the stream is the blob, and then with all of
it; a corrupt stream fails with `errorCode` after one call of the invalidator; another error of a
stream that is not too long is passed on with no call. The reader of `Get` deletes the requested
blob of the requested instance, with code `Internal`. -/
theorem checksumValidatingReader_read (s : Int) (hs : 0 ≤ s) (c : List UInt8)
    (family : List UInt8 → List UInt8) (inv : Invalidator) (code : Code) (src : Script)
    (lens : List Nat) :
    let d := drain (read Script.read) lens (start src c family s inv code)
    (0 ≤ d.state.sizeLeft ∧ (d.err = none → d.state.sizeLeft = s - d.data.length) ∧
      d.data <+: src.content ∧ (d.data.length : Int) ≤ s) ∧
    (src.chunks.length < lens.length →
      (d.err = some .eof ↔
          src.final = .eof ∧ (src.content.length : Int) = s ∧ family src.content = c) ∧
        (d.err = some .eof → d.data = src.content) ∧
        ((s < src.content.length ∨ (src.final = .eof ∧ (src.content.length : Int) < s) ∨
            (src.final = .eof ∧ (src.content.length : Int) = s ∧ family src.content ≠ c)) →
          (∃ msg, d.err = some (.status code msg)) ∧ d.state.invalidations = [inv]) ∧
        ((src.content.length : Int) ≤ s ∧ src.final ≠ .eof →
          d.err = some src.final ∧ d.state.invalidations = [])) ∧
    ∀ (formats : DigestFormats) (backendGet : String → Digest → Script) (instanceName : String)
      (digest : Digest) (digestFormat : List UInt8 → List UInt8),
      validateDigest formats digest = .ok digestFormat →
        MerkleBlobAccess.get formats backendGet instanceName digest =
          .ok (start (backendGet instanceName digest) (hexDecodeString digest.hash) digestFormat
            digest.sizeBytes (.delete instanceName digest) .internal) ∧ 0 ≤ digest.sizeBytes :=
  ⟨drain_start_bounded hs c family inv code src lens,
    fun hlen => drain_start_end s c family inv code src hlen,
    fun _ backendGet instanceName _ _ h =>
      ⟨MerkleBlobAccess.get_of_valid h backendGet instanceName, (validateDigest_ok h).2.2⟩⟩

theorem checksumValidatingReader_read_passes :
    (0 : Int) ≤ 1 ∧
      (drain (ChecksumValidatingReader.read Script.read) [1, 1]
        (ChecksumValidatingReader.start ⟨[[0x61]], [], .eof, false⟩ [0x61] id 1 .noop
          .invalidArgument)).err = some .eof :=
  ⟨by decide, ((checksumValidatingReader_read 1 (by decide) [0x61] id .noop .invalidArgument
    ⟨[[0x61]], [], .eof, false⟩ [1, 1]).2.1 (by decide)).1.mpr ⟨rfl, rfl, rfl⟩⟩

/-- A blob one byte short: the read that meets `io.EOF` fails and returns nothing, yet `sizeLeft`
has already dropped by the byte it withheld, so it is not the expected size less the bytes
delivered. -/
theorem checksumValidatingReader_sizeLeft_of_shorter :
    let d := drain (ChecksumValidatingReader.read Script.read) [1]
      (ChecksumValidatingReader.start ⟨[], [0x61], .eof, false⟩ [] id 2 .noop .internal)
    d.data = [] ∧ d.err ≠ none ∧ d.state.sizeLeft = 1 ∧ d.state.sizeLeft ≠ 2 - d.data.length := by
  decide

end Buildbarn.Blobstore
