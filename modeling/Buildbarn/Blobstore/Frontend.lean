import Buildbarn.Blobstore.ContentAddressableStorage
import Buildbarn.Blobstore.MerkleOverRedis

/-! The frontend: `byteStreamServer` over `NewMerkleBlobAccess(NewRedisBlobAccess(...))`, as the
workers' `contentAddressableStorageBlobAccess` reaches it. A blob that the client uploads is stored
exactly when it is the blob its digest names, the store is left as it was otherwise, and the client
then downloads exactly the blob. Whatever the store holds, a download that ends with `io.EOF` gave
the stored blob, and that blob is the one its digest names. Over any run of writes, on any streams,
the store keeps holding only blobs their digests name. -/

namespace Buildbarn.Blobstore

namespace Frontend
open MerkleOverRedis ContentAddressableStorageBlobAccess

/-- `byteStreamServer.Write` over the stack, whose `Put` gets the stream's live context: the error
`Write` returns and the store after it; `none` while `ioutil.ReadAll` has not finished within
`bufs`. -/
def write (formats : DigestFormats) (bufs : List Nat) (ba : RedisBlobAccess) (stream : WriteStream) :
    Outcome (Option (Option Error × RedisBlobAccess)) :=
  match ByteStreamServer.write stream with
  | .error err => .returns (some (some err, ba))
  | .ok (instanceName, digest, reader) =>
    match putReader ByteStreamWriteServerReader.read id formats bufs ba none instanceName digest
        digest.sizeBytes reader with
    | .returns res => .returns (res.map fun (err, ba, _) => (err, ba))
    | .aborts reason => .aborts reason

variable {σ : Type} {read : σ → Nat → ReadResult × σ}

theorem write_put (src : ByteSource read) {r : σ} (hg : src.good r) (hend : src.ending r = .eof)
    {readChunkSize fuel : Nat} (hk : 0 < readChunkSize) (hfuel : src.measure r < fuel)
    {digest : UtilDigest} (hi : '/' ∉ digest.instanceName.data) (hh : digest.hash ≠ [])
    (uuid : UUID) :
    ∃ requests reader, put read readChunkSize fuel digest uuid r = some (requests, none) ∧
      ByteStreamServer.write ⟨requests, .eof⟩ =
        .ok (digest.instanceName, digest.getRawDigest, reader) ∧
      ByteStreamWriteServerReader.source.content reader = src.content r ∧
      ByteStreamWriteServerReader.source.ending reader = .eof ∧
      ByteStreamWriteServerReader.source.measure reader < (src.content r).length + fuel := by
  obtain ⟨first, rest, hs, hname, -, hacc, hflat⟩ := put_source src hg hend hk hfuel digest uuid
  have hlen := sendRequests_length hs
  refine ⟨first :: rest, ⟨⟨rest, .eof⟩, first.data.length, first.data⟩, hs,
    ByteStreamServer.write_cons_of_parse (by
      rw [hname]
      exact parseResourceNameWrite_writeResourceName hi uuid (hexEncodeToString_isSegment hh)
        digest.sizeBytes_int64), ?_, ?_, ?_⟩
  · simp only [ByteStreamWriteServerReader.source, ByteStreamWriteServerReader.content, hacc, hflat]
  · simp only [ByteStreamWriteServerReader.source, ByteStreamWriteServerReader.ending, hacc]
  · simp only [ByteStreamWriteServerReader.source, ByteStreamWriteServerReader.measure, ← hflat,
      List.length_append, List.length_flatten, List.map_map, List.sum_map_add, List.length_cons]
      at hlen ⊢
    simp only [Function.comp_def, List.map_const', List.sum_replicate, smul_eq_mul, mul_one]
    omega

theorem write_eq {formats : DigestFormats} {digest : Digest}
    {digestFormat : List UInt8 → List UInt8} (hv : validateDigest formats digest = .ok digestFormat)
    {ba : RedisBlobAccess} {instanceName key : String}
    (hkey : ba.blobKeyer instanceName digest = .ok key) {stream : WriteStream}
    {reader : ByteStreamWriteServerReader}
    (hw : ByteStreamServer.write stream = .ok (instanceName, digest, reader)) {bufs : List Nat}
    (hbufs : ByteStreamWriteServerReader.source.measure reader < bufs.countP (0 < ·)) :
    ∃ err, write formats bufs ba stream = .returns (some (err, if err = none then
        { ba with keyspace := ba.keyspace.set key (ByteStreamWriteServerReader.source.content reader) }
        else ba)) ∧
      (err = none ↔ ByteStreamWriteServerReader.source.ending reader = .eof ∧
        ((ByteStreamWriteServerReader.source.content reader).length : Int) = digest.sizeBytes ∧
        hexEncodeToString (digestFormat (ByteStreamWriteServerReader.source.content reader)) =
          digest.hash) := by
  obtain ⟨err, r', hput, hiff⟩ :=
    putReader_of_valid_eq ByteStreamWriteServerReader.source id hv hkey trivial hbufs
  refine ⟨err, ?_, hiff⟩
  simp only [write, hw, hput]
  rfl

theorem getFromServer_of_stored {formats : DigestFormats} {digest : UtilDigest}
    {digestFormat : List UInt8 → List UInt8}
    (hv : validateDigest formats digest.getRawDigest = .ok digestFormat) {ba : RedisBlobAccess}
    {key : String} (hkey : ba.blobKeyer digest.instanceName digest.getRawDigest = .ok key)
    {blob : List UInt8} (hblob : ba.keyspace key = some blob)
    (hsize : (blob.length : Int) = digest.sizeBytes) (hsum : digestFormat blob = digest.hash)
    (hne : blob ≠ []) (hi : '/' ∉ digest.instanceName.data) (hh : digest.hash ≠ [])
    {readChunkSize fuel : Nat} (hk : 0 < readChunkSize) (hfuel : blob.length < fuel)
    (lens : List Nat) :
    ∃ reader, getFromServer (get formats ba none) MerkleOverRedis.read readChunkSize fuel digest =
        some (.returns (.ok (digest.sizeBytes, reader))) ∧
      Delivers ByteStreamBlobReader.read lens reader blob .eof
        (ByteStreamBlobReader.source.measure reader) := by
  have hsum' : digestFormat blob = hexDecodeString digest.getRawDigest.hash := by
    rw [UtilDigest.getRawDigest, hexDecode_encode, hsum]
  obtain ⟨-, hg, hc, he, hm⟩ := source_get_of_stored hv hkey hblob hsize hsum'
  obtain ⟨sent, hs, -, -, heof⟩ :=
    ByteStreamServer.sendLoop_source source hk fuel _ hg (hm ▸ hfuel)
  rw [he, if_pos rfl] at hs
  have hflat : sent.flatten = blob := (heof he).trans hc
  cases sent with
  | nil => exact absurd hflat.symm hne
  | cons m ms =>
    refine ⟨⟨⟨ms, .eof⟩, m⟩, ?_, ?_⟩
    · rw [getFromServer, read_readRequest _ _ readChunkSize fuel hi hh]
      exact congrArg (Option.map _) hs
    · have := ByteStreamBlobReader.source.delivers lens ⟨⟨ms, .eof⟩, m⟩ trivial
      rwa [show ByteStreamBlobReader.source.content ⟨⟨ms, .eof⟩, m⟩ = blob from hflat] at this

theorem source_get_ofServer {digest : UtilDigest} {sent : List (List UInt8)} {err : Option Error}
    {size : Int} {reader : ByteStreamBlobReader}
    (h : ContentAddressableStorageBlobAccess.get digest (ReadClient.ofServer (sent, err)) =
      .returns (.ok (size, reader))) :
    ByteStreamBlobReader.source.content reader = sent.flatten ∧
      ByteStreamBlobReader.source.ending reader = err.getD .eof := by
  cases sent with
  | nil =>
    cases err with
    | none => simp [ContentAddressableStorageBlobAccess.get, ReadClient.ofServer, ReadClient.recv] at h
    | some e =>
      cases e <;>
        simp [ContentAddressableStorageBlobAccess.get, ReadClient.ofServer, ReadClient.recv] at h
  | cons m ms =>
    cases err <;>
    · simp only [ContentAddressableStorageBlobAccess.get, ReadClient.ofServer, ReadClient.recv] at h
      cases h
      exact ⟨rfl, rfl⟩

/-! ### The store over a run of writes -/

/-- Over any write stream, the frontend's `Write` either leaves the store as it was or sets the key
of a valid digest to a blob of the digest's size and sum. -/
theorem write_stores {formats : DigestFormats} {bufs : List Nat} {ba ba' : RedisBlobAccess}
    {stream : WriteStream} {err : Option Error}
    (h : write formats bufs ba stream = .returns (some (err, ba'))) :
    ba' = ba ∨ ∃ instanceName digest digestFormat key blob,
      validateDigest formats digest = .ok digestFormat ∧ ba.blobKeyer instanceName digest = .ok key ∧
      (blob.length : Int) = digest.sizeBytes ∧ digestFormat blob = hexDecodeString digest.hash ∧
      ba' = { ba with keyspace := ba.keyspace.set key blob } := by
  cases hw : ByteStreamServer.write stream with
  | error e =>
    simp only [write, hw, Outcome.returns.injEq, Option.some.injEq, Prod.mk.injEq] at h
    exact .inl h.2.symm
  | ok v =>
    obtain ⟨instanceName, digest, reader⟩ := v
    cases hp : putReader ByteStreamWriteServerReader.read id formats bufs ba none instanceName digest
        digest.sizeBytes reader with
    | aborts reason => simp only [write, hw, hp, reduceCtorEq] at h
    | returns res =>
      simp only [write, hw, hp, Outcome.returns.injEq] at h
      obtain ⟨⟨err₁, ba₁, r₁⟩, rfl, heq⟩ := Option.map_eq_some'.mp h
      cases heq
      rcases putReader_stores hp with hba | ⟨digestFormat, key, blob, hfacts⟩
      · exact .inl hba
      · exact .inr ⟨instanceName, digest, digestFormat, key, blob, hfacts⟩

/-- The store holds only blobs that a valid digest whose key they are under names. -/
def Sound (formats : DigestFormats) (ba : RedisBlobAccess) : Prop :=
  ∀ key blob, ba.keyspace key = some blob → ∃ instanceName digest digestFormat,
    validateDigest formats digest = .ok digestFormat ∧ ba.blobKeyer instanceName digest = .ok key ∧
      (blob.length : Int) = digest.sizeBytes ∧ digestFormat blob = hexDecodeString digest.hash

theorem Sound.write {formats : DigestFormats} {bufs : List Nat} {ba ba' : RedisBlobAccess}
    {stream : WriteStream} {err : Option Error} (hs : Sound formats ba)
    (h : Frontend.write formats bufs ba stream = .returns (some (err, ba'))) :
    Sound formats ba' ∧ ba'.blobKeyer = ba.blobKeyer ∧
      ∀ key, ba.keyspace key ≠ none → ba'.keyspace key ≠ none := by
  rcases write_stores h with rfl | ⟨instanceName, digest, digestFormat, key, blob, hv, hk, hsize,
    hsum, rfl⟩
  · exact ⟨hs, rfl, fun _ => id⟩
  refine ⟨fun k b hb => ?_, rfl, fun k hk' => ?_⟩
  · by_cases hkk : k = key
    · subst hkk
      obtain rfl : blob = b := by simpa using hb
      exact ⟨instanceName, digest, digestFormat, hv, hk, hsize, hsum⟩
    · exact hs k b (by simpa [Keyspace.set_of_ne _ _ hkk] using hb)
  · by_cases hkk : k = key
    · subst hkk
      simp
    · simpa [Keyspace.set_of_ne _ _ hkk] using hk'

/-- The store over a run of completed `Write` calls, each on any stream with any buffers. Calls
that run at once end the same as one after the other: each reads only its own stream and then sets
one key, so the store changes only at those sets, in the order they happen. -/
inductive Run (formats : DigestFormats) : RedisBlobAccess → RedisBlobAccess → Prop
  | done (ba : RedisBlobAccess) : Run formats ba ba
  | write {ba ba' ba'' : RedisBlobAccess} (bufs : List Nat) (stream : WriteStream)
      (err : Option Error) : Frontend.write formats bufs ba stream = .returns (some (err, ba')) →
      Run formats ba' ba'' → Run formats ba ba''

theorem Run.sound {formats : DigestFormats} {ba ba' : RedisBlobAccess} (hrun : Run formats ba ba')
    (hs : Sound formats ba) :
    Sound formats ba' ∧ ba'.blobKeyer = ba.blobKeyer ∧
      ∀ key, ba.keyspace key ≠ none → ba'.keyspace key ≠ none := by
  induction hrun with
  | done => exact ⟨hs, rfl, fun _ => id⟩
  | write bufs stream err h _ ih =>
    obtain ⟨hs', hkeyer', hkeep'⟩ := Sound.write hs h
    obtain ⟨hs'', hkeyer'', hkeep''⟩ := ih hs'
    exact ⟨hs'', hkeyer''.trans hkeyer', fun key hkey => hkeep'' key (hkeep' key hkey)⟩

end Frontend

open Frontend ContentAddressableStorageBlobAccess in
/-- The whole upload and download path. A blob that the client's reader hands out, in any chunks,
uploaded with `contentAddressableStorageBlobAccess.Put` to the frontend's `Write` over the stack
(a valid digest whose instance has no slash and whose hash is not empty, a keyer that accepts it,
and enough buffers for `ioutil.ReadAll`) is stored under the digest's key exactly when it has the
digest's size and hash, and the store is left as it was otherwise. Once stored, a non-empty blob
is downloaded with `contentAddressableStorageBlobAccess.Get` from the frontend's `Read` as exactly
the blob, then `io.EOF`. -/
theorem frontend_roundTrip {σ : Type} {read : σ → Nat → ReadResult × σ} (src : ByteSource read)
    (r : σ) (hg : src.good r) (hend : src.ending r = .eof) {readChunkSize fuel : Nat}
    (hk : 0 < readChunkSize) (hfuel : src.measure r < fuel) (digest : UtilDigest)
    (hi : '/' ∉ digest.instanceName.data) (hh : digest.hash ≠ []) (uuid : UUID)
    (formats : DigestFormats) (digestFormat : List UInt8 → List UInt8)
    (hv : validateDigest formats digest.getRawDigest = .ok digestFormat) (ba : RedisBlobAccess)
    (key : String) (hkey : ba.blobKeyer digest.instanceName digest.getRawDigest = .ok key)
    (bufs : List Nat) (hbufs : (src.content r).length + fuel < bufs.countP (0 < ·)) :
    ∃ requests err, put read readChunkSize fuel digest uuid r = some (requests, none) ∧
      Frontend.write formats bufs ba ⟨requests, .eof⟩ = .returns (some (err, if err = none then
        { ba with keyspace := ba.keyspace.set key (src.content r) } else ba)) ∧
      (err = none ↔ ((src.content r).length : Int) = digest.sizeBytes ∧
        digestFormat (src.content r) = digest.hash) ∧
      (err = none → src.content r ≠ [] → ∀ (readChunkSize' fuel' : Nat), 0 < readChunkSize' →
        (src.content r).length < fuel' → ∀ lens, ∃ reader,
          getFromServer (MerkleOverRedis.get formats
              { ba with keyspace := ba.keyspace.set key (src.content r) } none)
            MerkleOverRedis.read readChunkSize' fuel' digest =
              some (.returns (.ok (digest.sizeBytes, reader))) ∧
          Delivers ByteStreamBlobReader.read lens reader (src.content r) .eof
            (ByteStreamBlobReader.source.measure reader)) := by
  obtain ⟨requests, reader, hput, hw, hc, he, hm⟩ := write_put src hg hend hk hfuel hi hh uuid
  obtain ⟨err, hwrite, hiff⟩ := write_eq hv hkey hw (hm.trans hbufs)
  have hhex : hexEncodeToString (digestFormat (src.content r)) = digest.getRawDigest.hash ↔
      digestFormat (src.content r) = digest.hash :=
    ⟨fun h => by rw [← hexDecode_encode (digestFormat _), h, UtilDigest.getRawDigest,
      hexDecode_encode], fun h => by rw [h]; rfl⟩
  rw [hc] at hwrite
  rw [hc, he, hhex, eq_self_iff_true, true_and] at hiff
  refine ⟨requests, err, hput, hwrite, hiff, fun herr hne readChunkSize' fuel' hk' hfuel' lens => ?_⟩
  obtain ⟨hsize, hsum⟩ := hiff.mp herr
  have hkey' : ({ ba with keyspace := ba.keyspace.set key (src.content r) } : RedisBlobAccess).blobKeyer
      digest.instanceName digest.getRawDigest = .ok key := hkey
  exact getFromServer_of_stored hv hkey' (Keyspace.set_same _ _ _) hsize hsum hne hi hh hk' hfuel'
    lens

theorem frontend_roundTrip_buffer :
    let ba : RedisBlobAccess := ⟨fun _ => none, fun _ d => .ok d.hash⟩
    let digest : UtilDigest := ⟨"", [0xab], 3, by decide⟩
    let blob : List UInt8 := [1, 2, 3]
    let bufs := List.replicate 8 1
    (blob.length < 4 ∧ '/' ∉ digest.instanceName.data ∧ digest.hash ≠ [] ∧
      validateDigest MerkleOverRedis.constFormats digest.getRawDigest = .ok (fun _ => [0xab]) ∧
      ba.blobKeyer digest.instanceName digest.getRawDigest = .ok "ab" ∧
      blob.length + 4 < bufs.countP (0 < ·)) ∧
    ∃ requests err, ContentAddressableStorageBlobAccess.put bufferRead 2 4 digest
        ⟨List.replicate 16 0, rfl⟩ blob = some (requests, none) ∧
      Frontend.write MerkleOverRedis.constFormats bufs ba ⟨requests, .eof⟩ =
        .returns (some (err, if err = none then { ba with keyspace := ba.keyspace.set "ab" blob }
          else ba)) ∧
      (err = none ↔ (blob.length : Int) = digest.sizeBytes ∧ [0xab] = digest.hash) ∧
      (err = none → blob ≠ [] → ∀ (readChunkSize' fuel' : Nat), 0 < readChunkSize' →
        blob.length < fuel' → ∀ lens, ∃ reader,
          ContentAddressableStorageBlobAccess.getFromServer (MerkleOverRedis.get
              MerkleOverRedis.constFormats
              { ba with keyspace := ba.keyspace.set "ab" blob } none)
            MerkleOverRedis.read readChunkSize' fuel' digest =
              some (.returns (.ok (digest.sizeBytes, reader))) ∧
          Delivers ByteStreamBlobReader.read lens reader blob .eof
            (ByteStreamBlobReader.source.measure reader)) := by
  intro ba digest blob bufs
  exact ⟨⟨by decide, by decide, by decide, rfl, rfl, by decide⟩, frontend_roundTrip bufferSource
    blob trivial rfl (by decide) (by decide) digest (by decide) (by decide) ⟨List.replicate 16 0, rfl⟩
    MerkleOverRedis.constFormats _ rfl ba "ab" rfl bufs (by decide)⟩

open Frontend ContentAddressableStorageBlobAccess in
/-- Whatever the store holds, a download that the client's `Get` from the frontend's `Read` hands
out and that ends with `io.EOF` delivered exactly the blob stored under the digest's key, and that
blob has the digest's size and hash: a blob that is missing or corrupted in the store never reaches
a client as a complete download. -/
theorem frontend_get_integrity (formats : DigestFormats) (ba : RedisBlobAccess) (digest : UtilDigest)
    (digestFormat : List UInt8 → List UInt8)
    (hv : validateDigest formats digest.getRawDigest = .ok digestFormat) (key : String)
    (hkey : ba.blobKeyer digest.instanceName digest.getRawDigest = .ok key)
    (hi : '/' ∉ digest.instanceName.data) (hh : digest.hash ≠ []) (readChunkSize fuel : Nat)
    (size : Int) (reader : ByteStreamBlobReader)
    (hget : getFromServer (MerkleOverRedis.get formats ba none) MerkleOverRedis.read readChunkSize
      fuel digest = some (.returns (.ok (size, reader))))
    (lens : List Nat) (heof : (drain ByteStreamBlobReader.read lens reader).err = some .eof) :
    ba.keyspace key = some (drain ByteStreamBlobReader.read lens reader).data ∧
      ((drain ByteStreamBlobReader.read lens reader).data.length : Int) = digest.sizeBytes ∧
      digestFormat (drain ByteStreamBlobReader.read lens reader).data = digest.hash := by
  rw [getFromServer, read_readRequest _ _ _ _ hi hh] at hget
  rw [UtilDigest.getRawDigest] at hv hkey
  obtain ⟨⟨sent, err⟩, hs, hout⟩ := Option.map_eq_some'.mp hget
  obtain ⟨hc, he⟩ := source_get_ofServer hout
  obtain ⟨hne, hd, hdata⟩ := ByteStreamServer.sendLoop_drain hs
  obtain ⟨hdata', heof'⟩ := (ByteStreamBlobReader.source.delivers lens reader trivial).2.1 _ heof
  have herr : err = none := by
    cases err with
    | none => rfl
    | some e => exact absurd (congrArg some (heof'.trans he)).symm hne
  rw [herr] at hd
  obtain ⟨hstored, hsize, hsum⟩ := MerkleOverRedis.drain_get_of_eof hv hkey hd
  rw [hdata herr] at hstored hsize hsum
  rw [hdata', hc]
  exact ⟨hstored, hsize, by simpa only [hexDecode_encode] using hsum⟩

theorem frontend_get_integrity_one_byte :
    let ba : RedisBlobAccess :=
      ⟨fun k => if k = "ab" then some [0x61] else none, fun _ d => .ok d.hash⟩
    let digest : UtilDigest := ⟨"", [0xab], 1, by decide⟩
    let reader : ByteStreamBlobReader := ⟨⟨[], .eof⟩, [0x61]⟩
    (validateDigest MerkleOverRedis.constFormats digest.getRawDigest = .ok (fun _ => [0xab]) ∧
      ba.blobKeyer digest.instanceName digest.getRawDigest = .ok "ab" ∧
      '/' ∉ digest.instanceName.data ∧ digest.hash ≠ [] ∧
      ContentAddressableStorageBlobAccess.getFromServer
          (MerkleOverRedis.get MerkleOverRedis.constFormats ba none) MerkleOverRedis.read 1 2 digest =
        some (.returns (.ok (1, reader))) ∧
      (drain ByteStreamBlobReader.read [1, 1] reader).err = some .eof) ∧
    ba.keyspace "ab" = some (drain ByteStreamBlobReader.read [1, 1] reader).data ∧
      ((drain ByteStreamBlobReader.read [1, 1] reader).data.length : Int) = digest.sizeBytes ∧
      [0xab] = digest.hash := by
  intro ba digest reader
  have hget : ContentAddressableStorageBlobAccess.getFromServer
      (MerkleOverRedis.get MerkleOverRedis.constFormats ba none) MerkleOverRedis.read 1 2 digest =
        some (.returns (.ok (1, reader))) := by
    rw [ContentAddressableStorageBlobAccess.getFromServer,
      ContentAddressableStorageBlobAccess.read_readRequest _ _ _ _ (by decide) (by decide)]
    rfl
  exact ⟨⟨rfl, rfl, by decide, by decide, hget, rfl⟩, frontend_get_integrity
    MerkleOverRedis.constFormats ba digest _ rfl "ab" rfl (by decide) (by decide) 1 2 1 reader hget
    [1, 1] rfl⟩

open Frontend MerkleOverRedis in
/-- The frontend's store over any run of `Write` calls, from a store that holds only blobs their
digests name, with a keyer that gives distinct digests distinct keys: the store goes on holding
only such blobs and loses no key, and `Get` of a valid digest whose key holds a blob reads that
blob whole, then `io.EOF`, without calling the invalidator. -/
theorem frontend_run_sound {formats : DigestFormats} {ba₀ ba : RedisBlobAccess}
    (hrun : Run formats ba₀ ba) (h₀ : Sound formats ba₀)
    (hinj : ∀ i i' d d' key, ba₀.blobKeyer i d = .ok key → ba₀.blobKeyer i' d' = .ok key → d = d') :
    Sound formats ba ∧ (∀ key, ba₀.keyspace key ≠ none → ba.keyspace key ≠ none) ∧
      ∀ instanceName digest digestFormat key blob,
        validateDigest formats digest = .ok digestFormat →
        ba.blobKeyer instanceName digest = .ok key → ba.keyspace key = some blob → ∀ lens,
          Delivers read lens (get formats ba none instanceName digest) blob .eof blob.length ∧
          ∀ r, (drain read lens (get formats ba none instanceName digest)).state = .ok r →
            r.invalidations = [] := by
  obtain ⟨hs, hkeyer, hkeep⟩ := hrun.sound h₀
  refine ⟨hs, hkeep, fun instanceName digest digestFormat key blob hv hkey hblob lens => ?_⟩
  obtain ⟨i', d', f', hv', hkey', hsize, hsum⟩ := hs key blob hblob
  obtain rfl : d' = digest := hinj _ _ _ _ _ (hkeyer ▸ hkey') (hkeyer ▸ hkey)
  obtain rfl : f' = digestFormat := Except.ok.inj (hv'.symm.trans hv)
  exact get_of_stored hv hkey hblob hsize hsum lens

theorem frontend_run_sound_one_write :
    let ba : RedisBlobAccess := ⟨fun _ => none,
      fun _ d => if d = ⟨"ab", 1⟩ then .ok "ab" else .error (.other "unknown digest")⟩
    let ba' : RedisBlobAccess := { ba with keyspace := ba.keyspace.set "ab" [0x61] }
    (Frontend.Run MerkleOverRedis.constFormats ba ba' ∧ Frontend.Sound MerkleOverRedis.constFormats ba ∧
      ∀ i i' d d' key, ba.blobKeyer i d = .ok key → ba.blobKeyer i' d' = .ok key → d = d') ∧
    Frontend.Sound MerkleOverRedis.constFormats ba' ∧
      (∀ key, ba.keyspace key ≠ none → ba'.keyspace key ≠ none) ∧
      ∀ instanceName digest digestFormat key blob,
        validateDigest MerkleOverRedis.constFormats digest = .ok digestFormat →
        ba'.blobKeyer instanceName digest = .ok key → ba'.keyspace key = some blob → ∀ lens,
          Delivers MerkleOverRedis.read lens
            (MerkleOverRedis.get MerkleOverRedis.constFormats ba' none instanceName digest) blob .eof
            blob.length ∧
          ∀ r, (drain MerkleOverRedis.read lens
              (MerkleOverRedis.get MerkleOverRedis.constFormats ba' none instanceName digest)).state =
                .ok r → r.invalidations = [] := by
  intro ba ba'
  have hp : parseResourceNameWrite "uploads/u/blobs/ab/1" = ("", some ⟨"ab", 1⟩) := by decide
  have hw : Frontend.write MerkleOverRedis.constFormats [1, 1, 1] ba
      ⟨[⟨"uploads/u/blobs/ab/1", 0, true, [0x61]⟩], .eof⟩ = .returns (some (none, ba')) := by
    simp only [Frontend.write, ByteStreamServer.write, WriteStream.recv, hp]
    rfl
  have hrun : Frontend.Run MerkleOverRedis.constFormats ba ba' := .write _ _ _ hw (.done ba')
  have hs : Frontend.Sound MerkleOverRedis.constFormats ba := fun _ _ h => by cases h
  have hinj : ∀ i i' d d' key, ba.blobKeyer i d = .ok key → ba.blobKeyer i' d' = .ok key →
      d = d' := by
    intro i i' d d' key h h'
    simp only [ba] at h h'
    split_ifs at h h' with hd hd'
    exact hd.trans hd'.symm
  exact ⟨⟨hrun, hs, hinj⟩, frontend_run_sound hrun hs hinj⟩

end Buildbarn.Blobstore
