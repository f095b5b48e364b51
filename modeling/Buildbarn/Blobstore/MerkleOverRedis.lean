import Buildbarn.Blobstore.MerkleBlobAccess
import Buildbarn.Blobstore.RedisBlobAccess
import Buildbarn.Blobstore.ByteStreamServer

/-! The stack `NewMerkleBlobAccess(NewRedisBlobAccess(client, blobKeyer))`. Its `Put` stores a
blob exactly when the upload is the blob its digest names, and leaves the keyspace as it was
otherwise, so that a second `Put` of the same upload changes nothing; a later `Get` reads the blob
back through the verifying reader, which then never calls its invalidator, and `byteStreamServer`
serves it whole. `FindMissing` reports the digests whose key is absent, and `Get` of those fails
with `NotFound`. -/

namespace Buildbarn.Blobstore

namespace MerkleOverRedis
open ChecksumValidatingReader (start)

/-- A format table that recognises two-digit hashes and sums every blob to the byte `0xab`: a table
under which concrete digests validate. -/
def constFormats : DigestFormats where
  fromLength n := if n = 2 then .ok (fun _ => [0xab]) else .error (.other "no such format")
  length_sum n family bs h := by
    dsimp only at h
    split_ifs at h with hn
    cases h
    simp [hn]

/-- `Put` through the stack, for a caller's reader given as a script; `bufs` are the buffers
`ioutil.ReadAll` reads with. -/
def put (formats : DigestFormats) (bufs : List Nat) (ba : RedisBlobAccess) (ctxErr : Option Error)
    (instanceName : String) (digest : Digest) (sizeBytes : Int) (src : Script) :
    Outcome (Option (Option Error × RedisBlobAccess × Script)) :=
  MerkleBlobAccess.put formats Script.close
    (fun instanceName digest _ r =>
      ba.put (ChecksumValidatingReader.read Script.read)
        (ChecksumValidatingReader.close Script.close) bufs ctxErr instanceName digest r)
    ba instanceName digest sizeBytes src

/-- `Put` through the stack, for a caller's reader with states `ρ`, read with `read` and closed
with `close`. -/
def putReader {ρ : Type} (read : ρ → Nat → ReadResult × ρ) (close : ρ → ρ) (formats : DigestFormats)
    (bufs : List Nat) (ba : RedisBlobAccess) (ctxErr : Option Error) (instanceName : String)
    (digest : Digest) (sizeBytes : Int) (r : ρ) :
    Outcome (Option (Option Error × RedisBlobAccess × ρ)) :=
  MerkleBlobAccess.put formats close
    (fun instanceName digest _ r =>
      ba.put (ChecksumValidatingReader.read read) (ChecksumValidatingReader.close close) bufs ctxErr
        instanceName digest r)
    ba instanceName digest sizeBytes r

def get (formats : DigestFormats) (ba : RedisBlobAccess) (ctxErr : Option Error)
    (instanceName : String) (digest : Digest) :
    Except Error (ChecksumValidatingReader (Except Error (List UInt8))) :=
  MerkleBlobAccess.get formats (ba.get ctxErr) instanceName digest

def read : Except Error (ChecksumValidatingReader (Except Error (List UInt8))) → Nat →
    ReadResult × Except Error (ChecksumValidatingReader (Except Error (List UInt8))) :=
  readOrFail (ChecksumValidatingReader.read (readOrFail bufferRead))

def source : ByteSource read := (ChecksumValidatingReader.intactSource bufferSource.orFail).orFail

section Stored
variable {formats : DigestFormats} {digest : Digest} {digestFormat : List UInt8 → List UInt8}
  {ba : RedisBlobAccess} {instanceName key : String} {blob : List UInt8}

theorem source_get_of_stored (hv : validateDigest formats digest = .ok digestFormat)
    (hkey : ba.blobKeyer instanceName digest = .ok key) (hblob : ba.keyspace key = some blob)
    (hsize : (blob.length : Int) = digest.sizeBytes)
    (hsum : digestFormat blob = hexDecodeString digest.hash) :
    get formats ba none instanceName digest =
        .ok (start (.ok blob) (hexDecodeString digest.hash) digestFormat digest.sizeBytes
          (.delete instanceName digest) .internal) ∧
      source.good (get formats ba none instanceName digest) ∧
      source.content (get formats ba none instanceName digest) = blob ∧
      source.ending (get formats ba none instanceName digest) = .eof ∧
      source.measure (get formats ba none instanceName digest) = blob.length := by
  have hget : ba.get none instanceName digest = .ok blob := by
    simp [RedisBlobAccess.get, hkey, hblob]
  rw [get, MerkleBlobAccess.get_of_valid hv, hget]
  exact ⟨rfl, ⟨trivial, rfl, hsize.symm, by simpa [HashState.write, HashState.sum] using hsum⟩,
    rfl, rfl, rfl⟩

theorem get_of_stored (hv : validateDigest formats digest = .ok digestFormat)
    (hkey : ba.blobKeyer instanceName digest = .ok key) (hblob : ba.keyspace key = some blob)
    (hsize : (blob.length : Int) = digest.sizeBytes)
    (hsum : digestFormat blob = hexDecodeString digest.hash) (lens : List Nat) :
    Delivers read lens (get formats ba none instanceName digest) blob .eof blob.length ∧
      ∀ r, (drain read lens (get formats ba none instanceName digest)).state = .ok r →
        r.invalidations = [] := by
  obtain ⟨hstart, hgood, hc, he, hm⟩ := source_get_of_stored hv hkey hblob hsize hsum
  refine ⟨by rw [← hm, ← hc, ← he]; exact source.delivers lens _ hgood, ?_⟩
  refine @ByteSource.drain_state _ _ source (fun s => ∀ r, s = .ok r → r.invalidations = [])
    ?_ lens _ hgood (by rw [hstart]; rintro r ⟨⟩; rfl)
  rintro (e | r) k hg hP r' hr'
  · cases hr'
  · cases hr'
    rw [ChecksumValidatingReader.read_invalidations_of_intact _ hg k]
    exact hP r rfl

/-- `byteStreamServer.Read` over the stack, asked for a whole blob by a name that parses to a valid
digest whose key holds the blob it names: with a non-empty chunk size and enough reads the server
sends the blob, in non-empty messages, and returns nil. -/
theorem byteStreamServer_read_stored (hv : validateDigest formats digest = .ok digestFormat)
    (hkey : ba.blobKeyer instanceName digest = .ok key) (hblob : ba.keyspace key = some blob)
    (hsize : (blob.length : Int) = digest.sizeBytes)
    (hsum : digestFormat blob = hexDecodeString digest.hash) (request : ReadRequest)
    (hname : parseResourceNameRead request.resourceName = (instanceName, some digest))
    (hwhole : request.readOffset = 0 ∧ request.readLimit = 0) {readChunkSize : Nat}
    (hk : 0 < readChunkSize) {fuel : Nat} (hfuel : blob.length < fuel) :
    ∃ sent, ByteStreamServer.read (get formats ba none) read readChunkSize fuel request =
        some (sent, none) ∧ (∀ m ∈ sent, m ≠ []) ∧ sent.flatten = blob := by
  obtain ⟨-, hgood, hc, he, hm⟩ := source_get_of_stored hv hkey hblob hsize hsum
  obtain ⟨sent, hs, hne, -, heof⟩ :=
    ByteStreamServer.sendLoop_source source hk fuel _ hgood (hm ▸ hfuel)
  refine ⟨sent, ?_, hne, hc ▸ heof he⟩
  rw [he, if_pos rfl] at hs
  simp only [ByteStreamServer.read, hwhole, hname, ne_eq, not_true_eq_false, or_self, if_false, hs]

end Stored

theorem byteStreamServer_read_stored_one_byte :
    let ba : RedisBlobAccess :=
      ⟨fun k => if k = "ab" then some [0x61] else none, fun _ d => .ok d.hash⟩
    ∃ sent, ByteStreamServer.read (get constFormats ba none) read 1 2 ⟨"blobs/ab/1", 0, 0⟩ =
      some (sent, none) ∧ (∀ m ∈ sent, m ≠ []) ∧ sent.flatten = [0x61] := by
  intro ba
  have hv : validateDigest constFormats ⟨"ab", 1⟩ = .ok fun _ => [0xab] := by rfl
  have hkey : ba.blobKeyer "" ⟨"ab", 1⟩ = .ok "ab" := rfl
  have hblob : ba.keyspace "ab" = some [0x61] := by decide
  have hname : parseResourceNameRead "blobs/ab/1" = ("", some ⟨"ab", 1⟩) := by decide
  exact byteStreamServer_read_stored hv hkey hblob rfl (by decide) ⟨"blobs/ab/1", 0, 0⟩ hname
    ⟨rfl, rfl⟩ (by decide) (by decide)

theorem get_of_absent {formats : DigestFormats} {digest : Digest}
    {digestFormat : List UInt8 → List UInt8} (hv : validateDigest formats digest = .ok digestFormat)
    {ba : RedisBlobAccess} {instanceName key : String}
    (hkey : ba.blobKeyer instanceName digest = .ok key) (habsent : ba.keyspace key = none)
    (k : Nat) (lens : List Nat) :
    let d := drain read (k :: lens) (get formats ba none instanceName digest)
    d.data = [] ∧ d.err = some RedisBlobAccess.notFound ∧
      ∃ r, d.state = .ok r ∧ r.invalidations = [] := by
  have hget : ba.get none instanceName digest = .error RedisBlobAccess.notFound := by
    simp [RedisBlobAccess.get, hkey, habsent]
  have hs : ¬digest.sizeBytes < 0 := not_lt.mpr (validateDigest_ok hv).2.2
  rw [get, MerkleBlobAccess.get_of_valid hv, hget]
  have hread : (read (.ok (start (.error RedisBlobAccess.notFound) (hexDecodeString digest.hash)
      digestFormat digest.sizeBytes (.delete instanceName digest) .internal)) k).1.err =
      some RedisBlobAccess.notFound := by
    simp [read, readOrFail, ChecksumValidatingReader.read, start, hs, RedisBlobAccess.notFound]
  rw [drain_cons_of_err lens hread]
  simp [read, readOrFail, ChecksumValidatingReader.read, start, hs, RedisBlobAccess.notFound]

/-- `Put` through the stack of a valid digest at its own size, with a live context and a keyer that
accepts it, closes the reader and sets the key to the upload exactly when the upload is the blob
the digest names; otherwise it leaves the store as it was. -/
theorem put_of_valid_eq {formats : DigestFormats} {digest : Digest}
    {digestFormat : List UInt8 → List UInt8} (hv : validateDigest formats digest = .ok digestFormat)
    {ba : RedisBlobAccess} {instanceName key : String}
    (hkey : ba.blobKeyer instanceName digest = .ok key) (src : Script) {bufs : List Nat}
    (hbufs : src.chunks.length < bufs.length) :
    ∃ err src', put formats bufs ba none instanceName digest digest.sizeBytes src =
        .returns (some (err, if err = none then { ba with keyspace := ba.keyspace.set key src.content }
          else ba, src')) ∧ src'.closed = true ∧
      (err = none ↔ src.final = .eof ∧ (src.content.length : Int) = digest.sizeBytes ∧
        hexEncodeToString (digestFormat src.content) = digest.hash) := by
  let d := drain (ChecksumValidatingReader.read Script.read) bufs
    (start src (hexDecodeString digest.hash) digestFormat digest.sizeBytes .noop .invalidArgument)
  obtain ⟨hiff, hdata, -, -⟩ := ChecksumValidatingReader.drain_start_end digest.sizeBytes
    (hexDecodeString digest.hash) digestFormat .noop .invalidArgument src hbufs
  have hsum := sum_eq_hexDecode_iff hv src.content
  rw [put, MerkleBlobAccess.put_of_valid hv]
  by_cases heof : d.err = some .eof
  · obtain ⟨hfinal, hsize, hdigest⟩ := hiff.mp heof
    refine ⟨none, Script.close d.state.readCloser, ?_, rfl,
      iff_of_true rfl ⟨hfinal, hsize, hsum.mp hdigest⟩⟩
    simp only [RedisBlobAccess.put, readAll_of_eof heof, Option.map_some', hdata heof, hkey]
    rfl
  · obtain ⟨e, he⟩ := Option.ne_none_iff_exists'.mp (ChecksumValidatingReader.drain_start_err_ne_none
      digest.sizeBytes _ digestFormat .noop .invalidArgument src hbufs)
    have he' : e ≠ .eof := fun h => heof (h ▸ he)
    refine ⟨some e, Script.close d.state.readCloser, ?_, rfl,
      iff_of_false (Option.some_ne_none e) fun ⟨hf, hs, hd⟩ => heof (hiff.mpr ⟨hf, hs, hsum.mpr hd⟩)⟩
    simp only [RedisBlobAccess.put, readAll_of_err he he', Option.map_some']
    rfl

theorem putReader_of_valid_eq {ρ : Type} {read : ρ → Nat → ReadResult × ρ} (src : ByteSource read)
    (close : ρ → ρ) {formats : DigestFormats} {digest : Digest}
    {digestFormat : List UInt8 → List UInt8} (hv : validateDigest formats digest = .ok digestFormat)
    {ba : RedisBlobAccess} {instanceName key : String}
    (hkey : ba.blobKeyer instanceName digest = .ok key) {r : ρ} (hg : src.good r)
    {bufs : List Nat} (hbufs : src.measure r < bufs.countP (0 < ·)) :
    ∃ err r', putReader read close formats bufs ba none instanceName digest digest.sizeBytes r =
        .returns (some (err, if err = none then
          { ba with keyspace := ba.keyspace.set key (src.content r) } else ba, close r')) ∧
      (err = none ↔ src.ending r = .eof ∧ ((src.content r).length : Int) = digest.sizeBytes ∧
        hexEncodeToString (digestFormat (src.content r)) = digest.hash) := by
  let d := drain (ChecksumValidatingReader.read read) bufs
    (start r (hexDecodeString digest.hash) digestFormat digest.sizeBytes .noop .invalidArgument)
  obtain ⟨hne, hiff, hdata, -, -⟩ := ChecksumValidatingReader.drain_start_source src hg hbufs
    digest.sizeBytes (hexDecodeString digest.hash) digestFormat .noop .invalidArgument
  have hsum := sum_eq_hexDecode_iff hv (src.content r)
  rw [putReader, MerkleBlobAccess.put_of_valid hv]
  by_cases heof : d.err = some .eof
  · obtain ⟨hfinal, hsize, hdigest⟩ := hiff.mp heof
    refine ⟨none, d.state.readCloser, ?_, iff_of_true rfl ⟨hfinal, hsize, hsum.mp hdigest⟩⟩
    simp only [RedisBlobAccess.put, readAll_of_eof heof, Option.map_some', hdata heof, hkey]
    rfl
  · obtain ⟨e, he⟩ := Option.ne_none_iff_exists'.mp hne
    have he' : e ≠ .eof := fun h => heof (h ▸ he)
    refine ⟨some e, d.state.readCloser, ?_,
      iff_of_false (Option.some_ne_none e) fun ⟨hf, hs, hd⟩ => heof (hiff.mpr ⟨hf, hs, hsum.mpr hd⟩)⟩
    simp only [RedisBlobAccess.put, readAll_of_err he he', Option.map_some']
    rfl

theorem drain_get_of_eof {formats : DigestFormats} {digest : Digest}
    {digestFormat : List UInt8 → List UInt8} (hv : validateDigest formats digest = .ok digestFormat)
    {ba : RedisBlobAccess} {instanceName key : String}
    (hkey : ba.blobKeyer instanceName digest = .ok key) {lens : List Nat}
    (h : (drain read lens (get formats ba none instanceName digest)).err = some .eof) :
    ba.keyspace key = some (drain read lens (get formats ba none instanceName digest)).data ∧
      ((drain read lens (get formats ba none instanceName digest)).data.length : Int) =
        digest.sizeBytes ∧
      digestFormat (drain read lens (get formats ba none instanceName digest)).data =
        hexDecodeString digest.hash := by
  rw [get, MerkleBlobAccess.get_of_valid hv, read, drain_readOrFail_ok] at h ⊢
  dsimp only at h ⊢
  have hg : bufferSource.orFail.good (ba.get none instanceName digest) := by
    cases ba.get none instanceName digest <;> trivial
  have hb : bufferSource.orFail.measure (ba.get none instanceName digest) <
      (lens ++ List.replicate (bufferSource.orFail.measure (ba.get none instanceName digest) + 1)
        1).countP (0 < ·) := by
    simp only [List.countP_append, List.countP_replicate, zero_lt_one, decide_True, if_true]
    omega
  have hext := drain_append_of_err lens (List.replicate (bufferSource.orFail.measure
    (ba.get none instanceName digest) + 1) 1) _ h
  rw [← hext] at h ⊢
  obtain ⟨-, hiff, hdata, -, -⟩ := ChecksumValidatingReader.drain_start_source bufferSource.orFail hg
    hb digest.sizeBytes (hexDecodeString digest.hash) digestFormat (.delete instanceName digest)
    .internal
  obtain ⟨hend, hsize, hsum⟩ := hiff.mp h
  rw [hdata h]
  cases hks : ba.keyspace key with
  | none => simp [RedisBlobAccess.get, hkey, hks, ByteSource.orFail, RedisBlobAccess.notFound] at hend
  | some blob =>
    simp only [RedisBlobAccess.get, hkey, hks] at hsize hsum ⊢
    exact ⟨rfl, hsize, hsum⟩

theorem putReader_stores {ρ : Type} {read : ρ → Nat → ReadResult × ρ} {close : ρ → ρ}
    {formats : DigestFormats} {bufs : List Nat} {ba ba' : RedisBlobAccess} {instanceName : String}
    {digest : Digest} {r r' : ρ} {err : Option Error}
    (h : putReader read close formats bufs ba none instanceName digest digest.sizeBytes r =
      .returns (some (err, ba', r'))) :
    ba' = ba ∨ ∃ digestFormat key blob, validateDigest formats digest = .ok digestFormat ∧
      ba.blobKeyer instanceName digest = .ok key ∧ (blob.length : Int) = digest.sizeBytes ∧
      digestFormat blob = hexDecodeString digest.hash ∧
      ba' = { ba with keyspace := ba.keyspace.set key blob } := by
  simp only [putReader, MerkleBlobAccess.put] at h
  cases hv : validateDigest formats digest with
  | error e =>
    simp only [hv, Outcome.returns.injEq, Option.some.injEq, Prod.mk.injEq] at h
    exact .inl h.2.1.symm
  | ok digestFormat =>
    simp only [hv, ne_eq, not_true_eq_false, if_false, Outcome.returns.injEq] at h
    obtain ⟨⟨err₁, ba₁, r₁⟩, hput, heq⟩ := Option.map_eq_some'.mp h
    cases heq
    rcases RedisBlobAccess.put_eq_none_or hput with rfl | hba
    · obtain ⟨value, key, r₂, hr, hk, rfl, -⟩ := RedisBlobAccess.put_eq_some_none hput
      obtain ⟨heof, rfl⟩ := readAll_eq_ok hr
      obtain ⟨hsize, hsum⟩ := ChecksumValidatingReader.drain_start_of_eof bufs r _ digestFormat _
        .noop .invalidArgument heof
      exact .inr ⟨digestFormat, key, _, rfl, hk, hsize, hsum, rfl⟩
    · exact .inl hba

end MerkleOverRedis

open MerkleOverRedis in
/-- A second `Put` through the stack of the same upload, in any chunking, changes nothing: it
succeeds exactly when the first did, and leaves the store as the first left it. -/
theorem merkleBlobAccess_put_idempotent (formats : DigestFormats) (ba : RedisBlobAccess)
    (instanceName : String) (digest : Digest) (key : String)
    (hkey : ba.blobKeyer instanceName digest = .ok key) (src₁ src₂ : Script)
    (hsame : src₂.content = src₁.content ∧ src₂.final = src₁.final) (bufs₁ bufs₂ : List Nat)
    (hbufs₁ : src₁.chunks.length < bufs₁.length) (hbufs₂ : src₂.chunks.length < bufs₂.length) :
    ∃ err₁ ba₁ r₁ err₂ r₂,
      put formats bufs₁ ba none instanceName digest digest.sizeBytes src₁ =
        .returns (some (err₁, ba₁, r₁)) ∧
      put formats bufs₂ ba₁ none instanceName digest digest.sizeBytes src₂ =
        .returns (some (err₂, ba₁, r₂)) ∧
      (err₂ = none ↔ err₁ = none) := by
  cases hv : validateDigest formats digest with
  | error err =>
    exact ⟨some err, ba, src₁.close, some err, src₂.close, MerkleBlobAccess.put_of_invalid hv _ _ _
      _ _ _, MerkleBlobAccess.put_of_invalid hv _ _ _ _ _ _, Iff.rfl⟩
  | ok digestFormat =>
    obtain ⟨err₁, r₁, h₁, -, hiff₁⟩ := put_of_valid_eq hv hkey src₁ hbufs₁
    have hkey₁ : (if err₁ = none then { ba with keyspace := ba.keyspace.set key src₁.content }
        else ba).blobKeyer instanceName digest = .ok key := by
      split_ifs <;> exact hkey
    obtain ⟨err₂, r₂, h₂, -, hiff₂⟩ := put_of_valid_eq hv hkey₁ src₂ hbufs₂
    have hiff : err₂ = none ↔ err₁ = none := by rw [hiff₂, hiff₁, hsame.1, hsame.2]
    refine ⟨err₁, _, r₁, err₂, r₂, h₁, ?_, hiff⟩
    rw [h₂]
    by_cases he₂ : err₂ = none
    · rw [if_pos he₂, if_pos (hiff.mp he₂), hsame.1, Keyspace.set_set]
    · rw [if_neg he₂]

theorem merkleBlobAccess_put_idempotent_rechunked :
    let ba : RedisBlobAccess := ⟨fun _ => none, fun _ d => .ok d.hash⟩
    let src₁ : Script := ⟨[[0x61]], [], .eof, false⟩
    let src₂ : Script := ⟨[], [0x61], .eof, false⟩
    ba.blobKeyer "" ⟨"ab", 1⟩ = .ok "ab" ∧ (src₂.content = src₁.content ∧ src₂.final = src₁.final) ∧
      src₁.chunks.length < [1, 1].length ∧ src₂.chunks.length < [1].length ∧
      ∃ err₁ ba₁ r₁ err₂ r₂,
        MerkleOverRedis.put MerkleOverRedis.constFormats [1, 1] ba none "" ⟨"ab", 1⟩ 1 src₁ =
          .returns (some (err₁, ba₁, r₁)) ∧
        MerkleOverRedis.put MerkleOverRedis.constFormats [1] ba₁ none "" ⟨"ab", 1⟩ 1 src₂ =
          .returns (some (err₂, ba₁, r₂)) ∧
        (err₂ = none ↔ err₁ = none) := by
  intro ba src₁ src₂
  exact ⟨rfl, ⟨rfl, rfl⟩, by decide, by decide, merkleBlobAccess_put_idempotent
    MerkleOverRedis.constFormats ba "" ⟨"ab", 1⟩ "ab" rfl src₁ src₂ ⟨rfl, rfl⟩ [1, 1] [1]
    (by decide) (by decide)⟩

open MerkleOverRedis in
/-- Through the stack, with a live context, digests that all validate and a keyer that accepts them
all, `FindMissing` returns exactly the digests whose key is absent, in order and with duplicates;
and `Get` of each of them fails on its first read with `NotFound`, with no call of the
invalidator. -/
theorem merkleBlobAccess_findMissing (formats : DigestFormats) (ba : RedisBlobAccess)
    (instanceName : String) (digests : List Digest) (keys : List String)
    (hkeys : digests.mapM (ba.blobKeyer instanceName) = .ok keys)
    (hvalid : ∀ d ∈ digests, ∃ digestFormat, validateDigest formats d = .ok digestFormat) :
    MerkleBlobAccess.findMissing formats (ba.findMissing none) instanceName digests =
        .ok (digests.filter (ba.absent instanceName)) ∧
      ∀ d ∈ digests.filter (ba.absent instanceName), ∀ k lens,
        let r := drain read (k :: lens) (get formats ba none instanceName d)
        r.data = [] ∧ r.err = some RedisBlobAccess.notFound ∧
          ∃ s, r.state = .ok s ∧ s.invalidations = [] := by
  obtain ⟨fs, hfs⟩ := mapM_eq_ok_of_forall hvalid
  refine ⟨by simp only [MerkleBlobAccess.findMissing, hfs, RedisBlobAccess.findMissing_of_keys hkeys],
    fun d hd k lens => ?_⟩
  obtain ⟨hd, habs⟩ := List.mem_filter.mp hd
  obtain ⟨key, hkey⟩ := exists_ok_of_mapM hkeys d hd
  obtain ⟨_, hv⟩ := hvalid d hd
  have habsent : ba.keyspace key = none := by simpa [RedisBlobAccess.absent, hkey] using habs
  exact get_of_absent hv hkey habsent k lens

theorem merkleBlobAccess_findMissing_absent :
    let ba : RedisBlobAccess := ⟨fun _ => none, fun _ d => .ok d.hash⟩
    ([⟨"ab", 1⟩] : List Digest).mapM (ba.blobKeyer "") = .ok ["ab"] ∧
      (∀ d ∈ ([⟨"ab", 1⟩] : List Digest),
        ∃ digestFormat, validateDigest MerkleOverRedis.constFormats d = .ok digestFormat) ∧
      MerkleBlobAccess.findMissing MerkleOverRedis.constFormats (ba.findMissing none) ""
        [⟨"ab", 1⟩] = .ok ([⟨"ab", 1⟩].filter (ba.absent "")) := by
  intro ba
  have hvalid : ∀ d ∈ ([⟨"ab", 1⟩] : List Digest),
      ∃ digestFormat, validateDigest MerkleOverRedis.constFormats d = .ok digestFormat := by
    intro d hd
    rw [List.mem_singleton.mp hd]
    exact ⟨fun _ => [0xab], by rfl⟩
  exact ⟨rfl, hvalid,
    (merkleBlobAccess_findMissing MerkleOverRedis.constFormats ba "" [⟨"ab", 1⟩] ["ab"] rfl hvalid).1⟩

end Buildbarn.Blobstore
