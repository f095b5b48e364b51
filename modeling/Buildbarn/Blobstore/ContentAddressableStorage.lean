import Buildbarn.Blobstore.ByteStreamServer

/-! `contentAddressableStorageBlobAccess`, the client that relays `Get` and `Put` to a ByteStream
service, run against `byteStreamServer`. `Get` reads the first message eagerly; its reader then
hands out that message and the later ones. `Put` sends the blob as requests at the running offsets,
which the server's reader reassembles. -/

namespace Buildbarn.Blobstore

/-- A `ByteStream_ReadClient` as the client's `Recv` sees it: the messages the server sent, then
the error every further `Recv` returns. -/
structure ReadClient where
  responses : List (List UInt8)
  ending : Error
  deriving DecidableEq, Repr

namespace ReadClient

/-- `client.Recv()`, giving the data of the next message. -/
def recv : ReadClient → Except Error (List UInt8 × ReadClient)
  | ⟨m :: ms, e⟩ => .ok (m, ⟨ms, e⟩)
  | ⟨[], e⟩ => .error e

/-- The client end of a call whose server handler sent `sent` and returned `err`: `Recv` gives the
messages, then `io.EOF` if the handler returned nil, else its error. -/
def ofServer : List (List UInt8) × Option Error → ReadClient
  | (sent, none) => ⟨sent, .eof⟩
  | (sent, some err) => ⟨sent, err⟩

end ReadClient

/-- A `byteStreamBlobReader`: the stream, and the part of the last message not yet returned (the
source's field `partial`). -/
structure ByteStreamBlobReader where
  client : ReadClient
  partialData : List UInt8
  deriving DecidableEq, Repr

namespace ByteStreamBlobReader

/-- `byteStreamBlobReader.Read` into a buffer of `k` bytes. -/
def read (r : ByteStreamBlobReader) (k : Nat) : ReadResult × ByteStreamBlobReader :=
  if 0 < r.partialData.length then
    (⟨r.partialData.take k, none⟩, { r with partialData := r.partialData.drop k })
  else
    match r.client.recv with
    | .error err => (⟨[], some err⟩, r)
    | .ok (chunk, client) => (⟨chunk.take k, none⟩, ⟨client, chunk.drop k⟩)

theorem read_of_pos {r : ByteStreamBlobReader} {k : Nat} (h : 0 < r.partialData.length) :
    read r k = (⟨r.partialData.take k, none⟩, { r with partialData := r.partialData.drop k }) :=
  if_pos h

theorem read_nil (e : Error) (k : Nat) : read ⟨⟨[], e⟩, []⟩ k = (⟨[], some e⟩, ⟨⟨[], e⟩, []⟩) := rfl

theorem read_cons (m : List UInt8) (ms : List (List UInt8)) (e : Error) (k : Nat) :
    read ⟨⟨m :: ms, e⟩, []⟩ k = (⟨m.take k, none⟩, ⟨⟨ms, e⟩, m.drop k⟩) := rfl

def source : ByteSource read where
  good _ := True
  content r := r.partialData ++ r.client.responses.flatten
  ending r := r.client.ending
  measure r := r.partialData.length + (r.client.responses.map (·.length + 1)).sum
  read_ok r k _ h := by
    obtain ⟨⟨ms, e⟩, p⟩ := r
    by_cases hp : 0 < p.length
    · rw [read_of_pos hp]
      refine ⟨trivial, by rw [← List.append_assoc, List.take_append_drop], rfl, by simp, ?_⟩
      intro hk
      simp only [List.length_drop]
      omega
    · obtain rfl : p = [] := List.length_eq_zero.mp (by omega)
      match ms with
      | [] => rw [read_nil] at h; cases h
      | m :: ms =>
        rw [read_cons]
        refine ⟨trivial, ?_, rfl, ?_, fun _ => ?_⟩
        · simp only [List.nil_append, List.flatten_cons, ← List.append_assoc, List.take_append_drop]
        all_goals simp only [List.length_drop, List.length_nil, List.map_cons, List.sum_cons]; omega
  read_err r k e _ h := by
    obtain ⟨⟨ms, e'⟩, p⟩ := r
    by_cases hp : 0 < p.length
    · rw [read_of_pos hp] at h; cases h
    · obtain rfl : p = [] := List.length_eq_zero.mp (by omega)
      match ms with
      | [] =>
        rw [read_nil] at h ⊢
        cases h
        exact ⟨rfl, rfl⟩
      | m :: ms => rw [read_cons] at h; cases h

end ByteStreamBlobReader

namespace ContentAddressableStorageBlobAccess

def readRequest (digest : UtilDigest) : ReadRequest :=
  ⟨readResourceName digest.instanceName (hexEncodeToString digest.hash) digest.sizeBytes, 0, 0⟩

/-- `contentAddressableStorageBlobAccess.Get`, once `Read` has returned `client`: it reads the
first message to detect errors eagerly. When that `Recv` meets `io.EOF` its chunk is nil, and
`chunk.Data` stops the process. -/
def get (digest : UtilDigest) (client : ReadClient) :
    Outcome (Except Error (Int × ByteStreamBlobReader)) :=
  match client.recv with
  | .error .eof => .aborts "invalid memory address or nil pointer dereference"
  | .error err => .returns (.error err)
  | .ok (chunk, client) => .returns (.ok (digest.sizeBytes, ⟨client, chunk⟩))

variable {σ : Type}

/-- `Get` against `byteStreamServer.Read` over a `BlobAccess` whose `Get` gives readers with states
`σ`; `none` when the server has not finished within `fuel` reads. -/
def getFromServer (serverGet : String → Digest → σ) (readR : σ → Nat → ReadResult × σ)
    (readChunkSize fuel : Nat) (digest : UtilDigest) :
    Option (Outcome (Except Error (Int × ByteStreamBlobReader))) :=
  (ByteStreamServer.read serverGet readR readChunkSize fuel (readRequest digest)).map
    fun out => get digest (ReadClient.ofServer out)

/-- The loop of `contentAddressableStorageBlobAccess.Put`, reading `readChunkSize` bytes at a time:
a read that does not fail is sent at the running offset, with the resource name the first time
only; the read that meets `io.EOF` is sent with `FinishWrite` and ends the loop (`CloseAndRecv`
follows); another error ends it with that error. `none` when not done within `fuel` reads. -/
def sendRequests (read : σ → Nat → ReadResult × σ) (readChunkSize : Nat) :
    Nat → String → Int → σ → Option (List WriteRequest × Option Error)
  | 0, _, _, _ => none
  | fuel + 1, resourceName, writeOffset, r =>
    let res := (read r readChunkSize).1
    match res.err with
    | none =>
      (sendRequests read readChunkSize fuel "" (writeOffset + res.data.length)
        (read r readChunkSize).2).map fun (rest, err) =>
          (⟨resourceName, writeOffset, false, res.data⟩ :: rest, err)
    | some .eof => some ([⟨resourceName, writeOffset, true, res.data⟩], none)
    | some err => some ([], some err)

/-- `contentAddressableStorageBlobAccess.Put` of the blob `r` reads, under the upload `uuid`: the
requests it sends, and the error it returns before `CloseAndRecv`, if any. -/
def put (read : σ → Nat → ReadResult × σ) (readChunkSize fuel : Nat) (digest : UtilDigest)
    (uuid : UUID) (r : σ) : Option (List WriteRequest × Option Error) :=
  sendRequests read readChunkSize fuel
    (writeResourceName digest.instanceName uuid (hexEncodeToString digest.hash) digest.sizeBytes)
    0 r

/-- `contentAddressableStorageBlobAccess.Delete`. -/
def delete : Error :=
  .status .unimplemented "Bazel remote execution protocol does not support object deletion"

def mixedInstances : Error :=
  .status .invalidArgument "Cannot use mixed instance names in a single request"

/-- The loop of `FindMissing` that fills `request.BlobDigests`; it stops at the first digest of
another instance than `instanceName`. -/
def blobDigests (instanceName : String) : List UtilDigest → Except Error (List Digest)
  | [] => .ok []
  | digest :: digests =>
    if digest.instanceName ≠ instanceName then .error mixedInstances
    else (blobDigests instanceName digests).map (digest.getRawDigest :: ·)

/-- `contentAddressableStorageBlobAccess.FindMissing`. `findMissingBlobs` is the CAS service's
`FindMissingBlobs` for an instance, and `newDigest` is `util.NewDigest`, which this source calls
but does not contain. -/
def findMissing (findMissingBlobs : String → List Digest → Except Error (List Digest))
    (newDigest : String → Digest → Except Error UtilDigest) :
    List UtilDigest → Except Error (List UtilDigest)
  | [] => .ok []
  | digest :: digests => do
    let request ← blobDigests digest.instanceName (digest :: digests)
    let missing ← findMissingBlobs digest.instanceName request
    missing.mapM (newDigest digest.instanceName)

theorem blobDigests_eq (instanceName : String) :
    ∀ digests : List UtilDigest, blobDigests instanceName digests =
      if ∀ d ∈ digests, d.instanceName = instanceName then .ok (digests.map UtilDigest.getRawDigest)
      else .error mixedInstances
  | [] => by simp [blobDigests]
  | d :: ds => by
    rw [blobDigests, blobDigests_eq instanceName ds]
    by_cases hd : d.instanceName = instanceName
    · have hcons : (∀ d' ∈ d :: ds, d'.instanceName = instanceName) ↔
          ∀ d' ∈ ds, d'.instanceName = instanceName := by simp [hd]
      rw [if_neg (not_not.mpr hd)]
      by_cases hds : ∀ d' ∈ ds, d'.instanceName = instanceName
      · rw [if_pos hds, if_pos (hcons.mpr hds)]
        rfl
      · rw [if_neg hds, if_neg (mt hcons.mp hds)]
        rfl
    · rw [if_pos hd, if_neg fun h => hd (h d (List.mem_cons_self d ds))]

end ContentAddressableStorageBlobAccess

def RunningOffsets : Int → List WriteRequest → Prop
  | _, [] => True
  | writeOffset, q :: qs => q.writeOffset = writeOffset ∧ RunningOffsets (writeOffset + q.data.length) qs

theorem accepted_of_runningOffsets (ending : Error) :
    ∀ (requests : List WriteRequest) (writeOffset : Int), RunningOffsets writeOffset requests →
      accepted ending requests writeOffset = ((requests.map (·.data)).flatten, ending)
  | [], _, _ => rfl
  | q :: qs, _, ⟨hq, hqs⟩ => by
    rw [accepted_cons_of_eq hq, accepted_of_runningOffsets ending qs _ hqs]
    rfl

namespace ContentAddressableStorageBlobAccess
variable {σ : Type}

/-- From a reader that hands out its content and then `io.EOF`, with a non-empty buffer and enough
reads, `Put` sends the content at the running offsets, the resource name with the first request
only, and ends with `CloseAndRecv`. -/
theorem sendRequests_source {read : σ → Nat → ReadResult × σ} (src : ByteSource read)
    {readChunkSize : Nat} (hk : 0 < readChunkSize) :
    ∀ (fuel : Nat) (resourceName : String) (writeOffset : Int) (r : σ), src.good r →
      src.ending r = .eof → src.measure r < fuel →
      ∃ first rest, sendRequests read readChunkSize fuel resourceName writeOffset r =
          some (first :: rest, none) ∧ first.resourceName = resourceName ∧
        RunningOffsets writeOffset (first :: rest) ∧
        ((first :: rest).map (·.data)).flatten = src.content r
  | 0, _, _, _, _, _, h => absurd h (Nat.not_lt_zero _)
  | fuel + 1, resourceName, writeOffset, r, hg, heof, hm => by
    cases he : (read r readChunkSize).1.err with
    | none =>
      obtain ⟨hg', hc, hend, -, hlt⟩ := src.read_ok r readChunkSize hg he
      obtain ⟨first, rest, hs, -, hrun, hflat⟩ := sendRequests_source src hk fuel ""
        (writeOffset + (read r readChunkSize).1.data.length) _ hg' (hend.trans heof)
        (by have := hlt hk; omega)
      refine ⟨⟨resourceName, writeOffset, false, (read r readChunkSize).1.data⟩, first :: rest,
        by simp only [sendRequests, he, hs, Option.map_some'], rfl, ⟨rfl, hrun⟩, ?_⟩
      rw [hc, ← hflat]
      rfl
    | some e =>
      obtain ⟨hd, rfl⟩ := src.read_err r readChunkSize e hg he
      refine ⟨⟨resourceName, writeOffset, true, (read r readChunkSize).1.data⟩, [],
        by simp only [sendRequests, he, heof], rfl, ⟨rfl, trivial⟩, ?_⟩
      simp [hd]

theorem sendRequests_length {read : σ → Nat → ReadResult × σ} {readChunkSize : Nat} :
    ∀ {fuel : Nat} {resourceName : String} {writeOffset : Int} {r : σ}
      {requests : List WriteRequest} {err : Option Error},
      sendRequests read readChunkSize fuel resourceName writeOffset r = some (requests, err) →
        requests.length ≤ fuel
  | 0, _, _, _, _, _, h => by cases h
  | fuel + 1, _, _, _, _, _, h => by
    simp only [sendRequests] at h
    split at h
    · obtain ⟨⟨rest, e⟩, hrest, heq⟩ := Option.map_eq_some'.mp h
      cases heq
      have := sendRequests_length hrest
      simp only [List.length_cons]
      omega
    · cases h; simp
    · cases h; simp

theorem put_source {read : σ → Nat → ReadResult × σ} (src : ByteSource read) {r : σ}
    (hg : src.good r) (hend : src.ending r = .eof) {readChunkSize fuel : Nat}
    (hk : 0 < readChunkSize) (hfuel : src.measure r < fuel) (digest : UtilDigest) (uuid : UUID) :
    ∃ first rest, put read readChunkSize fuel digest uuid r = some (first :: rest, none) ∧
      first.resourceName =
        writeResourceName digest.instanceName uuid (hexEncodeToString digest.hash)
          digest.sizeBytes ∧
      RunningOffsets 0 (first :: rest) ∧
      accepted .eof rest first.data.length = ((rest.map (·.data)).flatten, .eof) ∧
      first.data ++ (rest.map (·.data)).flatten = src.content r := by
  obtain ⟨first, rest, hs, hname, hrun, hflat⟩ := sendRequests_source src hk fuel _ 0 r hg hend hfuel
  exact ⟨first, rest, hs, hname, hrun,
    accepted_of_runningOffsets .eof rest _ (by simpa using hrun.2), hflat⟩

end ContentAddressableStorageBlobAccess

namespace ContentAddressableStorageBlobAccess
variable {σ : Type}

theorem read_readRequest (serverGet : String → Digest → σ) (readR : σ → Nat → ReadResult × σ)
    (readChunkSize fuel : Nat) {digest : UtilDigest} (hi : '/' ∉ digest.instanceName.data)
    (hh : digest.hash ≠ []) :
    ByteStreamServer.read serverGet readR readChunkSize fuel (readRequest digest) =
      ByteStreamServer.sendLoop readR readChunkSize fuel
        (serverGet digest.instanceName ⟨hexEncodeToString digest.hash, digest.sizeBytes⟩) := by
  simp only [ByteStreamServer.read, readRequest, ne_eq, not_true_eq_false, or_self, if_false,
    parseResourceNameRead_readResourceName hi (hexEncodeToString_isSegment hh)
      digest.sizeBytes_int64]

theorem eq_nil_of_flatten_eq_nil {sent : List (List UInt8)} (hne : ∀ m ∈ sent, m ≠ [])
    (h : sent.flatten = []) : sent = [] := by
  cases sent with
  | nil => rfl
  | cons m ms => exact absurd (List.append_eq_nil.mp h).1 (hne m (List.mem_cons_self m ms))

end ContentAddressableStorageBlobAccess

open ContentAddressableStorageBlobAccess in
/-- `Get` of the empty blob from `byteStreamServer`: the server sends no message and returns nil,
so the client's first `Recv` meets `io.EOF` and `Get` stops the process on `chunk.Data`. -/
theorem contentAddressableStorage_get_empty {σ : Type} {readR : σ → Nat → ReadResult × σ}
    (src : ByteSource readR) (serverGet : String → Digest → σ) (digest : UtilDigest) (r : σ)
    (hr : serverGet digest.instanceName ⟨hexEncodeToString digest.hash, digest.sizeBytes⟩ = r)
    (hi : '/' ∉ digest.instanceName.data) (hh : digest.hash ≠ []) (hg : src.good r)
    (hend : src.ending r = .eof) (hc : src.content r = []) {readChunkSize fuel : Nat}
    (hk : 0 < readChunkSize) (hfuel : src.measure r < fuel) :
    getFromServer serverGet readR readChunkSize fuel digest =
      some (.aborts "invalid memory address or nil pointer dereference") := by
  obtain ⟨sent, hs, hne, -, heof⟩ := ByteStreamServer.sendLoop_source src hk fuel r hg hfuel
  obtain rfl := eq_nil_of_flatten_eq_nil hne ((heof hend).trans hc)
  rw [getFromServer, read_readRequest serverGet readR readChunkSize fuel hi hh, hr, hs]
  simp only [hend, if_true, ReadClient.ofServer, Option.map_some']
  rfl

theorem contentAddressableStorage_get_empty_script :
    '/' ∉ "".data ∧ [(0xab : UInt8)] ≠ [] ∧
      ContentAddressableStorageBlobAccess.getFromServer
          (fun _ _ => (⟨[], [], .eof, false⟩ : Script)) Script.read 1 1 ⟨"", [0xab], 0, by decide⟩ =
        some (.aborts "invalid memory address or nil pointer dereference") :=
  ⟨by decide, by decide, contentAddressableStorage_get_empty Script.source
    (fun _ _ => ⟨[], [], .eof, false⟩) ⟨"", [0xab], 0, by decide⟩ ⟨[], [], .eof, false⟩ rfl
    (by decide) (by decide) trivial rfl rfl (by decide : 0 < 1) (by decide : 0 < 1)⟩

open ContentAddressableStorageBlobAccess in
/-- `Get` of a non-empty blob from `byteStreamServer`, whatever chunks the server's reader gives:
it returns the digest's size and a reader that hands out exactly the blob, then `io.EOF`. -/
theorem contentAddressableStorage_get_reads {σ : Type} {readR : σ → Nat → ReadResult × σ}
    (src : ByteSource readR) (serverGet : String → Digest → σ) (digest : UtilDigest) (r : σ)
    (hr : serverGet digest.instanceName ⟨hexEncodeToString digest.hash, digest.sizeBytes⟩ = r)
    (hi : '/' ∉ digest.instanceName.data) (hh : digest.hash ≠ []) (hg : src.good r)
    (hend : src.ending r = .eof) (hc : src.content r ≠ []) {readChunkSize fuel : Nat}
    (hk : 0 < readChunkSize) (hfuel : src.measure r < fuel) (lens : List Nat) :
    ∃ reader, getFromServer serverGet readR readChunkSize fuel digest =
        some (.returns (.ok (digest.sizeBytes, reader))) ∧
      Delivers ByteStreamBlobReader.read lens reader (src.content r) .eof
        (ByteStreamBlobReader.source.measure reader) := by
  obtain ⟨sent, hs, -, -, heof⟩ := ByteStreamServer.sendLoop_source src hk fuel r hg hfuel
  rw [hend] at hs
  cases sent with
  | nil => exact absurd (heof hend).symm hc
  | cons m ms =>
    refine ⟨⟨⟨ms, .eof⟩, m⟩, ?_, ?_⟩
    · rw [getFromServer, read_readRequest serverGet readR readChunkSize fuel hi hh, hr, hs]
      rfl
    · have := ByteStreamBlobReader.source.delivers lens ⟨⟨ms, .eof⟩, m⟩ trivial
      rwa [show ByteStreamBlobReader.source.content ⟨⟨ms, .eof⟩, m⟩ = src.content r from
        (heof hend).symm ▸ rfl] at this

theorem contentAddressableStorage_get_reads_script :
    '/' ∉ "".data ∧ [(0xab : UInt8)] ≠ [] ∧
      ∃ reader, ContentAddressableStorageBlobAccess.getFromServer
          (fun _ _ => (⟨[[1, 2]], [3], .eof, false⟩ : Script)) Script.read 2 2
          ⟨"", [0xab], 3, by decide⟩ = some (.returns (.ok (3, reader))) := by
  obtain ⟨reader, h, -⟩ := contentAddressableStorage_get_reads Script.source
    (fun _ _ => ⟨[[1, 2]], [3], .eof, false⟩) ⟨"", [0xab], 3, by decide⟩ ⟨[[1, 2]], [3], .eof, false⟩
    rfl (by decide) (by decide) trivial rfl (by decide) (by decide : 0 < 2) (by decide : 1 < 2) []
  exact ⟨by decide, by decide, reader, h⟩

open ContentAddressableStorageBlobAccess in
/-- `Put` of a blob that its reader hands out and ends with `io.EOF`, in any chunks: the first
request carries the resource name of the upload and every request its running offset. The server's
`Write` accepts that name when the instance has no slash and the hash is not empty, and whenever it
accepts it, the reader it hands to `Put` accepts every request and yields exactly the blob, then
`io.EOF`. -/
theorem contentAddressableStorage_put {σ : Type} {read : σ → Nat → ReadResult × σ}
    (src : ByteSource read) (r : σ) (hg : src.good r) (hend : src.ending r = .eof)
    {readChunkSize fuel : Nat} (hk : 0 < readChunkSize) (hfuel : src.measure r < fuel)
    (digest : UtilDigest) (uuid : UUID) (lens : List Nat) :
    ∃ first rest, put read readChunkSize fuel digest uuid r = some (first :: rest, none) ∧
      first.resourceName =
        writeResourceName digest.instanceName uuid (hexEncodeToString digest.hash)
          digest.sizeBytes ∧
      RunningOffsets 0 (first :: rest) ∧
      ('/' ∉ digest.instanceName.data → digest.hash ≠ [] →
        ByteStreamServer.write ⟨first :: rest, .eof⟩ = .ok (digest.instanceName,
          digest.getRawDigest, ⟨⟨rest, .eof⟩, first.data.length, first.data⟩)) ∧
      ∀ instanceName d reader, ByteStreamServer.write ⟨first :: rest, .eof⟩ =
          .ok (instanceName, d, reader) →
        (accepted .eof reader.stream.requests reader.writeOffset).2 = .eof ∧
        Delivers ByteStreamWriteServerReader.read lens reader (src.content r) .eof
          (ByteStreamWriteServerReader.measure reader) := by
  obtain ⟨first, rest, hs, hname, hrun, hacc, hflat⟩ :=
    put_source src hg hend hk hfuel digest uuid
  refine ⟨first, rest, hs, hname, hrun, fun hi hh => ?_, fun instanceName d reader hw => ?_⟩
  · rw [ByteStreamServer.write_cons_of_parse (by
      rw [hname]
      exact parseResourceNameWrite_writeResourceName hi uuid (hexEncodeToString_isSegment hh)
        digest.sizeBytes_int64)]
    rfl
  · obtain rfl := ByteStreamServer.eq_of_write_cons hw
    refine ⟨by rw [hacc], ?_⟩
    have := ByteStreamWriteServerReader.source.delivers lens
      ⟨⟨rest, .eof⟩, first.data.length, first.data⟩ trivial
    simp only [ByteStreamWriteServerReader.source, ByteStreamWriteServerReader.content,
      ByteStreamWriteServerReader.ending, hacc] at this
    rwa [hflat] at this

theorem contentAddressableStorage_put_script :
    ∃ first rest, ContentAddressableStorageBlobAccess.put Script.read 1 3 ⟨"", [0xab], 2, by decide⟩
        ⟨List.replicate 16 0, rfl⟩ ⟨[[1], [2]], [], .eof, false⟩ = some (first :: rest, none) ∧
      ByteStreamServer.write ⟨first :: rest, .eof⟩ = .ok ("", ⟨hexEncodeToString [0xab], 2⟩,
        ⟨⟨rest, .eof⟩, first.data.length, first.data⟩) := by
  obtain ⟨first, rest, h, -, -, hw, -⟩ := contentAddressableStorage_put Script.source
    ⟨[[1], [2]], [], .eof, false⟩ trivial rfl (by decide : 0 < 1) (by decide : 2 < 3)
    ⟨"", [0xab], 2, by decide⟩ ⟨List.replicate 16 0, rfl⟩ []
  exact ⟨first, rest, h, hw (by decide) (by decide)⟩

open ContentAddressableStorageBlobAccess in
/-- `FindMissing` of digests of more than one instance fails with `InvalidArgument` whatever the
service would answer; of digests of one instance it asks the service about their raw digests, in
order, under that instance, and converts the answer back under that instance. -/
theorem contentAddressableStorage_findMissing
    (findMissingBlobs : String → List Digest → Except Error (List Digest))
    (newDigest : String → Digest → Except Error UtilDigest) (digest : UtilDigest)
    (digests : List UtilDigest) :
    findMissing findMissingBlobs newDigest [] = .ok [] ∧
      ((∃ d ∈ digests, d.instanceName ≠ digest.instanceName) →
        findMissing findMissingBlobs newDigest (digest :: digests) =
          .error (.status .invalidArgument "Cannot use mixed instance names in a single request")) ∧
      ((∀ d ∈ digests, d.instanceName = digest.instanceName) →
        findMissing findMissingBlobs newDigest (digest :: digests) =
          findMissingBlobs digest.instanceName ((digest :: digests).map UtilDigest.getRawDigest) >>=
            (·.mapM (newDigest digest.instanceName))) := by
  refine ⟨rfl, fun ⟨d, hd, hne⟩ => ?_, fun h => ?_⟩
  · have hmixed : ¬∀ d ∈ digest :: digests, d.instanceName = digest.instanceName :=
      fun h => hne (h d (List.mem_cons_of_mem _ hd))
    rw [findMissing, blobDigests_eq, if_neg hmixed]
    rfl
  · have hsame : ∀ d ∈ digest :: digests, d.instanceName = digest.instanceName :=
      List.forall_mem_cons.mpr ⟨rfl, h⟩
    rw [findMissing, blobDigests_eq, if_pos hsame]
    rfl

theorem contentAddressableStorage_findMissing_mixed :
    let a : UtilDigest := ⟨"a", [0xab], 1, by decide⟩
    let b : UtilDigest := ⟨"b", [0xab], 1, by decide⟩
    (∃ d ∈ [b], d.instanceName ≠ a.instanceName) ∧
      ContentAddressableStorageBlobAccess.findMissing (fun _ _ => .ok []) (fun _ _ => .error .eof)
        [a, b] =
        .error (.status .invalidArgument "Cannot use mixed instance names in a single request") := by
  intro a b
  have h : ∃ d ∈ [b], d.instanceName ≠ a.instanceName := ⟨b, List.mem_singleton_self b, by decide⟩
  exact ⟨h, (contentAddressableStorage_findMissing (fun _ _ => .ok []) (fun _ _ => .error .eof) a
    [b]).2.1 h⟩

end Buildbarn.Blobstore
