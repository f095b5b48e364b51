import Buildbarn.Blobstore.ResourceName

/-! `byteStreamServer`, the ByteStream service over a `BlobAccess`. `Read` sends a blob as messages
of at most `readChunkSize` bytes; `Write` parses the first request's resource name and hands `Put`
a `byteStreamWriteServerReader`, which reassembles the data of the requests and checks each
offset but the first. -/

namespace Buildbarn.Blobstore

/-- A `bytestream.WriteRequest`. -/
structure WriteRequest where
  resourceName : String
  writeOffset : Int
  finishWrite : Bool
  data : List UInt8
  deriving DecidableEq, Repr

/-- A `Write` stream as the server's `Recv` sees it: the requests still to come, then the error
every further `Recv` returns (`io.EOF` once the client has closed its side). -/
structure WriteStream where
  requests : List WriteRequest
  ending : Error
  deriving DecidableEq, Repr

/-- `stream.Recv()`. -/
def WriteStream.recv : WriteStream → Except Error (WriteRequest × WriteStream)
  | ⟨r :: rs, e⟩ => .ok (r, ⟨rs, e⟩)
  | ⟨[], e⟩ => .error e

def offsetError (writeOffset expected : Int) : Error :=
  .other ("Attempted to write at offset " ++ formatInt writeOffset ++ ", while " ++
    formatInt expected ++ " was expected")

/-- A `byteStreamWriteServerReader`: the stream, the offset the next request must write at, and
the data of the last request not yet returned. -/
structure ByteStreamWriteServerReader where
  stream : WriteStream
  writeOffset : Int
  data : List UInt8
  deriving DecidableEq, Repr

namespace ByteStreamWriteServerReader

/-- The loop of `Read`, with `k` bytes of the buffer still free and `out` copied so far: copy what
is left of the last request, return once the buffer is full, else receive the next request and
check its offset. -/
def readLoop (ending : Error) : List WriteRequest → Int → List UInt8 → Nat → List UInt8 →
    ReadResult × ByteStreamWriteServerReader
  | requests, writeOffset, data, k, out =>
    if k ≤ data.length then
      (⟨out ++ data.take k, none⟩, ⟨⟨requests, ending⟩, writeOffset, data.drop k⟩)
    else
      match requests with
      | [] => (⟨out ++ data, some ending⟩, ⟨⟨[], ending⟩, writeOffset, []⟩)
      | request :: requests =>
        if request.writeOffset ≠ writeOffset then
          (⟨out ++ data, some (offsetError request.writeOffset writeOffset)⟩,
            ⟨⟨requests, ending⟩, writeOffset, []⟩)
        else
          readLoop ending requests (writeOffset + request.data.length) request.data
            (k - data.length) (out ++ data)

/-- `byteStreamWriteServerReader.Read` into a buffer of `k` bytes. -/
def read (r : ByteStreamWriteServerReader) (k : Nat) : ReadResult × ByteStreamWriteServerReader :=
  readLoop r.stream.ending r.stream.requests r.writeOffset r.data k []

end ByteStreamWriteServerReader

/-! ### What a write stream carries -/

/-- The data of requests from offset `writeOffset` on: each request must write at the offset the
data before it reaches, and the stream ends at the first one that does not, with the offset error,
or after the last one, with the stream's own ending. -/
def accepted (ending : Error) : List WriteRequest → Int → List UInt8 × Error
  | [], _ => ([], ending)
  | request :: requests, writeOffset =>
    if request.writeOffset ≠ writeOffset then ([], offsetError request.writeOffset writeOffset)
    else
      let rest := accepted ending requests (writeOffset + request.data.length)
      (request.data ++ rest.1, rest.2)

theorem accepted_cons_of_eq {ending : Error} {request : WriteRequest}
    {requests : List WriteRequest} {writeOffset : Int} (h : request.writeOffset = writeOffset) :
    accepted ending (request :: requests) writeOffset =
      (request.data ++ (accepted ending requests (writeOffset + request.data.length)).1,
        (accepted ending requests (writeOffset + request.data.length)).2) := by
  simp [accepted, h]

theorem accepted_cons_of_ne {ending : Error} {request : WriteRequest}
    {requests : List WriteRequest} {writeOffset : Int} (h : request.writeOffset ≠ writeOffset) :
    accepted ending (request :: requests) writeOffset =
      ([], offsetError request.writeOffset writeOffset) := by
  simp [accepted, h]

namespace ByteStreamWriteServerReader

def content (r : ByteStreamWriteServerReader) : List UInt8 :=
  r.data ++ (accepted r.stream.ending r.stream.requests r.writeOffset).1

def ending (r : ByteStreamWriteServerReader) : Error :=
  (accepted r.stream.ending r.stream.requests r.writeOffset).2

def measure (r : ByteStreamWriteServerReader) : Nat :=
  r.data.length + (r.stream.requests.map fun q => q.data.length + 1).sum

theorem readLoop_out (ending : Error) :
    ∀ (requests : List WriteRequest) (writeOffset : Int) (data : List UInt8) (k : Nat)
      (out : List UInt8),
      readLoop ending requests writeOffset data k out =
        (⟨out ++ (readLoop ending requests writeOffset data k []).1.data,
          (readLoop ending requests writeOffset data k []).1.err⟩,
          (readLoop ending requests writeOffset data k []).2)
  | requests, writeOffset, data, k, out => by
    unfold readLoop
    split_ifs with hk
    · simp
    · match requests with
      | [] => simp
      | request :: requests =>
        simp only
        split_ifs with ho
        · simp
        · rw [readLoop_out ending requests _ _ _ (out ++ data),
            readLoop_out ending requests _ _ _ ([] ++ data)]
          simp

section ReadLoop
variable {ending : Error} {requests : List WriteRequest} {writeOffset : Int} {data : List UInt8}
  {k : Nat}

theorem readLoop_of_le (hk : k ≤ data.length) :
    readLoop ending requests writeOffset data k [] =
      (⟨data.take k, none⟩, ⟨⟨requests, ending⟩, writeOffset, data.drop k⟩) := by
  unfold readLoop; rw [if_pos hk, List.nil_append]

theorem readLoop_nil (hk : ¬k ≤ data.length) :
    readLoop ending [] writeOffset data k [] =
      (⟨data, some ending⟩, ⟨⟨[], ending⟩, writeOffset, []⟩) := by
  unfold readLoop; rw [if_neg hk, List.nil_append]

theorem readLoop_cons_of_ne {request : WriteRequest} (hk : ¬k ≤ data.length)
    (h : request.writeOffset ≠ writeOffset) :
    readLoop ending (request :: requests) writeOffset data k [] =
      (⟨data, some (offsetError request.writeOffset writeOffset)⟩,
        ⟨⟨requests, ending⟩, writeOffset, []⟩) := by
  unfold readLoop; simp [hk, h]

theorem readLoop_cons_of_eq {request : WriteRequest} (hk : ¬k ≤ data.length)
    (h : request.writeOffset = writeOffset) :
    readLoop ending (request :: requests) writeOffset data k [] =
      let res := readLoop ending requests (writeOffset + request.data.length) request.data
        (k - data.length) []
      (⟨data ++ res.1.data, res.1.err⟩, res.2) := by
  conv_lhs => unfold readLoop
  simp only [if_neg hk, h, ne_eq, not_true_eq_false, if_false, List.nil_append]
  rw [readLoop_out]

end ReadLoop

theorem readLoop_ok (ending : Error) :
    ∀ (requests : List WriteRequest) (writeOffset : Int) (data : List UInt8) (k : Nat),
      (readLoop ending requests writeOffset data k []).1.err = none →
        let res := readLoop ending requests writeOffset data k []
        res.1.data.length = k ∧
          content ⟨⟨requests, ending⟩, writeOffset, data⟩ = res.1.data ++ content res.2 ∧
          res.2.ending = ByteStreamWriteServerReader.ending ⟨⟨requests, ending⟩, writeOffset, data⟩ ∧
          measure res.2 ≤ measure ⟨⟨requests, ending⟩, writeOffset, data⟩ ∧
          (0 < k → measure res.2 < measure ⟨⟨requests, ending⟩, writeOffset, data⟩)
  | requests, writeOffset, data, k, h => by
    dsimp only
    by_cases hk : k ≤ data.length
    · rw [readLoop_of_le hk]
      refine ⟨by simp [hk], ?_, rfl, by simp [measure], fun hk0 => ?_⟩
      · simp only [content]; rw [← List.append_assoc, List.take_append_drop]
      · simp only [measure, List.length_drop]
        omega
    · match requests with
      | [] => rw [readLoop_nil hk] at h; cases h
      | q :: qs =>
        by_cases ho : q.writeOffset = writeOffset
        · rw [readLoop_cons_of_eq hk ho] at h ⊢
          obtain ⟨h₁, h₂, h₃, h₄, -⟩ := readLoop_ok ending qs _ q.data (k - data.length) h
          refine ⟨by simp only [List.length_append, h₁]; omega, ?_, ?_, ?_, fun _ => ?_⟩
          · simp only [content, accepted_cons_of_eq ho, List.append_assoc] at h₂ ⊢
            rw [h₂]
          · simp only [ByteStreamWriteServerReader.ending, accepted_cons_of_eq ho] at h₃ ⊢
            exact h₃
          all_goals
            simp only [measure, List.map_cons, List.sum_cons] at h₄ ⊢
            omega
        · rw [readLoop_cons_of_ne hk ho] at h; cases h

theorem readLoop_err (ending : Error) :
    ∀ (requests : List WriteRequest) (writeOffset : Int) (data : List UInt8) (k : Nat) (e : Error),
      (readLoop ending requests writeOffset data k []).1.err = some e →
        (readLoop ending requests writeOffset data k []).1.data =
            content ⟨⟨requests, ending⟩, writeOffset, data⟩ ∧
          e = ByteStreamWriteServerReader.ending ⟨⟨requests, ending⟩, writeOffset, data⟩
  | requests, writeOffset, data, k, e, h => by
    by_cases hk : k ≤ data.length
    · rw [readLoop_of_le hk] at h; cases h
    · match requests with
      | [] =>
        rw [readLoop_nil hk] at h ⊢
        cases h
        simp [content, ByteStreamWriteServerReader.ending, accepted]
      | q :: qs =>
        by_cases ho : q.writeOffset = writeOffset
        · rw [readLoop_cons_of_eq hk ho] at h ⊢
          obtain ⟨h₁, h₂⟩ := readLoop_err ending qs _ q.data (k - data.length) e h
          simp only [content, ByteStreamWriteServerReader.ending, accepted_cons_of_eq ho] at h₁ h₂ ⊢
          exact ⟨by rw [h₁], h₂⟩
        · rw [readLoop_cons_of_ne hk ho] at h ⊢
          cases h
          simp [content, ByteStreamWriteServerReader.ending, accepted_cons_of_ne ho]

def source : ByteSource read where
  good _ := True
  content := content
  ending := ByteStreamWriteServerReader.ending
  measure := measure
  read_ok r k _ h := by
    obtain ⟨_, h₂, h₃, h₄, h₅⟩ := readLoop_ok r.stream.ending r.stream.requests r.writeOffset r.data k h
    exact ⟨trivial, h₂, h₃, h₄, h₅⟩
  read_err r k e _ h := readLoop_err r.stream.ending r.stream.requests r.writeOffset r.data k e h

theorem read_length_of_ok {r : ByteStreamWriteServerReader} {k : Nat}
    (h : (read r k).1.err = none) : (read r k).1.data.length = k :=
  (readLoop_ok r.stream.ending r.stream.requests r.writeOffset r.data k h).1

end ByteStreamWriteServerReader

def invalidResourceName : Error := .status .invalidArgument "Invalid resource naming scheme"

/-- A `bytestream.ReadRequest`. -/
structure ReadRequest where
  resourceName : String
  readOffset : Int
  readLimit : Int
  deriving DecidableEq, Repr

namespace ByteStreamServer
variable {σ : Type}

/-- The loop of `byteStreamServer.Read`: read `readChunkSize` bytes at a time and send what a read
returns when it is not empty; stop at `io.EOF`, returning nil, or at another error, returning it
with the bytes of that read unsent. It gives the messages sent and the error returned, or `none`
when the reader has not stopped within `fuel` reads. -/
def sendLoop (read : σ → Nat → ReadResult × σ) (readChunkSize : Nat) :
    Nat → σ → Option (List (List UInt8) × Option Error)
  | 0, _ => none
  | fuel + 1, r =>
    let res := (read r readChunkSize).1
    let sent := if 0 < res.data.length then [res.data] else []
    match res.err with
    | some .eof => some (sent, none)
    | some err => some ([], some err)
    | none => (sendLoop read readChunkSize fuel (read r readChunkSize).2).map
        fun (rest, err) => (sent ++ rest, err)

/-- `byteStreamServer.Read` over a `BlobAccess` whose `Get` gives readers with states `σ`. -/
def read (get : String → Digest → σ) (readR : σ → Nat → ReadResult × σ) (readChunkSize : Nat)
    (fuel : Nat) (request : ReadRequest) : Option (List (List UInt8) × Option Error) :=
  if request.readOffset ≠ 0 ∨ request.readLimit ≠ 0 then
    some ([], some (.status .unimplemented "This service does not support downloading partial files"))
  else
    match parseResourceNameRead request.resourceName with
    | (_, none) => some ([], some invalidResourceName)
    | (instanceName, some digest) => sendLoop readR readChunkSize fuel (get instanceName digest)

/-- `byteStreamServer.Write` up to its call of `Put`: the error it returns first, or the instance,
the digest and the reader it passes to `Put` (whose size argument is the digest's). -/
def write (stream : WriteStream) : Except Error (String × Digest × ByteStreamWriteServerReader) :=
  match stream.recv with
  | .error err => .error err
  | .ok (request, stream) =>
    match parseResourceNameWrite request.resourceName with
    | (_, none) => .error invalidResourceName
    | (instanceName, some digest) =>
      .ok (instanceName, digest, ⟨stream, request.data.length, request.data⟩)

theorem write_cons_of_parse {first : WriteRequest} {rest : List WriteRequest} {ending : Error}
    {instanceName : String} {digest : Digest}
    (h : parseResourceNameWrite first.resourceName = (instanceName, some digest)) :
    write ⟨first :: rest, ending⟩ =
      .ok (instanceName, digest, ⟨⟨rest, ending⟩, first.data.length, first.data⟩) := by
  simp only [write, WriteStream.recv, h]

theorem eq_of_write_cons {first : WriteRequest} {rest : List WriteRequest} {ending : Error}
    {instanceName : String} {digest : Digest} {reader : ByteStreamWriteServerReader}
    (h : write ⟨first :: rest, ending⟩ = .ok (instanceName, digest, reader)) :
    reader = ⟨⟨rest, ending⟩, first.data.length, first.data⟩ := by
  simp only [write, WriteStream.recv] at h
  split at h
  · cases h
  · cases h; rfl

theorem flatten_sent (data : List UInt8) :
    (if 0 < data.length then [data] else []).flatten = data := by
  split_ifs with h
  · simp
  · simp [List.length_eq_zero.mp (Nat.eq_zero_of_not_pos h)]

theorem ne_nil_of_mem_sent {data m : List UInt8}
    (h : m ∈ (if 0 < data.length then [data] else [])) : m ≠ [] := by
  split_ifs at h with h0
  · exact List.mem_singleton.mp h ▸ List.ne_nil_of_length_pos h0
  · cases h

/-- From a reader that hands out its content and then `io.EOF`, with a non-empty buffer and enough
reads, the server sends the content in non-empty messages and returns nil; a reader that ends in
another error has a prefix of its content sent and its error returned. -/
theorem sendLoop_source {read : σ → Nat → ReadResult × σ} (src : ByteSource read)
    {readChunkSize : Nat} (hk : 0 < readChunkSize) :
    ∀ (fuel : Nat) (r : σ), src.good r → src.measure r < fuel →
      ∃ sent, sendLoop read readChunkSize fuel r =
          some (sent, if src.ending r = .eof then none else some (src.ending r)) ∧
        (∀ m ∈ sent, m ≠ []) ∧ sent.flatten <+: src.content r ∧
        (src.ending r = .eof → sent.flatten = src.content r)
  | 0, _, _, h => absurd h (Nat.not_lt_zero _)
  | fuel + 1, r, hg, hm => by
    cases he : (read r readChunkSize).1.err with
    | none =>
      obtain ⟨hg', hc, hend, -, hlt⟩ := src.read_ok r readChunkSize hg he
      obtain ⟨sent, hs, hne, hpre, heof⟩ :=
        sendLoop_source src hk fuel _ hg' (by have := hlt hk; omega)
      refine ⟨(if 0 < (read r readChunkSize).1.data.length then [(read r readChunkSize).1.data]
        else []) ++ sent, by simp only [sendLoop, he, hs, hend, Option.map_some'], ?_, ?_, ?_⟩
      · rintro m hm'
        rcases List.mem_append.mp hm' with hm' | hm'
        exacts [ne_nil_of_mem_sent hm', hne m hm']
      · rw [hc, List.flatten_append, flatten_sent]
        exact (List.prefix_append_right_inj _).mpr hpre
      · intro h
        rw [hend] at heof
        rw [hc, List.flatten_append, flatten_sent, heof h]
    | some e =>
      obtain ⟨hd, rfl⟩ := src.read_err r readChunkSize e hg he
      by_cases heof : src.ending r = .eof
      · refine ⟨if 0 < (read r readChunkSize).1.data.length then [(read r readChunkSize).1.data]
          else [], by simp only [sendLoop, he, heof, if_true], fun m hm' => ne_nil_of_mem_sent hm',
          ?_, fun _ => by rw [flatten_sent, hd]⟩
        rw [flatten_sent, hd]
      · refine ⟨[], ?_, by simp, List.nil_prefix, fun h => absurd h heof⟩
        simp only [sendLoop, he, heof, if_false]

theorem sendLoop_drain {read : σ → Nat → ReadResult × σ} {readChunkSize : Nat} :
    ∀ {fuel : Nat} {r : σ} {sent : List (List UInt8)} {err : Option Error},
      sendLoop read readChunkSize fuel r = some (sent, err) →
        err ≠ some .eof ∧
          (drain read (List.replicate fuel readChunkSize) r).err = some (err.getD .eof) ∧
          (err = none → (drain read (List.replicate fuel readChunkSize) r).data = sent.flatten)
  | 0, _, _, _, h => by cases h
  | fuel + 1, r, sent, err, h => by
    rw [List.replicate_succ]
    cases he : (read r readChunkSize).1.err with
    | none =>
      simp only [sendLoop, he] at h
      obtain ⟨⟨rest, e⟩, hrest, heq⟩ := Option.map_eq_some'.mp h
      cases heq
      obtain ⟨h₁, h₂, h₃⟩ := sendLoop_drain hrest
      rw [drain_cons_of_ok _ he]
      exact ⟨h₁, h₂, fun h => by rw [h₃ h, List.flatten_append, flatten_sent]⟩
    | some e =>
      rw [drain_cons_of_err _ he]
      by_cases heof : e = .eof
      · subst heof
        simp only [sendLoop, he, Option.some.injEq, Prod.mk.injEq] at h
        obtain ⟨rfl, rfl⟩ := h
        exact ⟨by simp, rfl, fun _ => (flatten_sent _).symm⟩
      · simp only [sendLoop, he, heof, Option.some.injEq, Prod.mk.injEq] at h
        obtain ⟨rfl, rfl⟩ := h
        exact ⟨by simpa using heof, rfl, fun h => by cases h⟩

end ByteStreamServer

/-- A caller that reads the reader `Write` hands to `Put` until the first error gets the data of
the first request and then the accepted data of the others, and then the stream's ending, or the
offset error of the first request after the first one whose offset is wrong; every read that does
not fail fills its buffer. -/
theorem byteStreamWriteServerReader_read (first : WriteRequest) (requests : List WriteRequest)
    (ending : Error) (lens : List Nat) :
    let r : ByteStreamWriteServerReader := ⟨⟨requests, ending⟩, first.data.length, first.data⟩
    (∀ instanceName digest reader, ByteStreamServer.write ⟨first :: requests, ending⟩ =
        .ok (instanceName, digest, reader) → reader = r) ∧
      Delivers ByteStreamWriteServerReader.read lens r
        (first.data ++ (accepted ending requests first.data.length).1)
        (accepted ending requests first.data.length).2 (ByteStreamWriteServerReader.measure r) ∧
      ∀ (r' : ByteStreamWriteServerReader) (k : Nat),
        (r'.read k).1.err = none → (r'.read k).1.data.length = k := by
  intro r
  exact ⟨fun _ _ _ => ByteStreamServer.eq_of_write_cons,
    ByteStreamWriteServerReader.source.delivers lens r trivial,
    fun _ _ h => ByteStreamWriteServerReader.read_length_of_ok h⟩

/-- The first request writes at offset 5, yet its byte is delivered, then the next request's
byte, then `io.EOF`. -/
theorem byteStreamWriteServerReader_first_offset :
    let stream : WriteStream :=
      ⟨[⟨"uploads/u/blobs/ab/2", 5, false, [1]⟩, ⟨"", 1, true, [2]⟩], .eof⟩
    let r : ByteStreamWriteServerReader := ⟨⟨[⟨"", 1, true, [2]⟩], .eof⟩, 1, [1]⟩
    ByteStreamServer.write stream = .ok ("", ⟨"ab", 2⟩, r) ∧
      (drain ByteStreamWriteServerReader.read [4] r).data = [1, 2] ∧
      (drain ByteStreamWriteServerReader.read [4] r).err = some .eof := by
  intro stream r
  exact ⟨by rfl, by decide, by decide⟩

end Buildbarn.Blobstore
