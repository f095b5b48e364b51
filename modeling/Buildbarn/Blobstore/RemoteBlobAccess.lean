import Buildbarn.Blobstore.Digest

/-! `remoteBlobAccess`, a blob store over a cache that speaks Bazel's HTTP caching protocol. Every
operation addresses a blob by the URL `address/prefix/hash`, so neither the instance name nor the
size reaches the cache. The HTTP client is modelled by the answers it gets for each URL: a
transport error, or a status code (and, for `GET`, the response body). -/

namespace Buildbarn.Blobstore

/-- A `remoteBlobAccess`. -/
structure RemoteBlobAccess where
  address : String
  prefix_ : String

namespace RemoteBlobAccess

/-- The URL every operation builds: `fmt.Sprintf("%s/%s/%s", ba.address, ba.prefix, hash)`. -/
def url (ba : RemoteBlobAccess) (digest : Digest) : String :=
  ba.address ++ "/" ++ ba.prefix_ ++ "/" ++ digest.hash

/-- `http.StatusNotFound`. -/
def statusNotFound : Nat := 404

/-- `http.StatusOK`. -/
def statusOK : Nat := 200

/-- `convertHTTPUnexpectedStatus`; `statusText` is `http.StatusText`, which this source calls but
does not contain. -/
def convertHTTPUnexpectedStatus (statusText : Nat → String) (statusCode : Nat) : Error :=
  .status .unknown ("Unexpected status code from remote cache: " ++ formatInt statusCode ++ " - " ++
    statusText statusCode)

/-- `remoteBlobAccess.Get`: the response body, or the error every `Read` of the returned
`errorReader` gives. `httpGet` is what `ctxhttp.Get` gives for a URL. -/
def get {σ : Type} (ba : RemoteBlobAccess) (httpGet : String → Except Error (Nat × σ))
    (statusText : Nat → String) (_instanceName : String) (digest : Digest) : Except Error σ :=
  match httpGet (ba.url digest) with
  | .error err => .error err
  | .ok (statusCode, body) =>
    if statusCode = statusNotFound then .error (.status .notFound (ba.url digest))
    else if statusCode = statusOK then .ok body
    else .error (convertHTTPUnexpectedStatus statusText statusCode)

/-- The request `Put` hands to `ctxhttp.Do`: method `PUT`, the URL, `ContentLength` and the body. -/
structure PutRequest (ρ : Type) where
  url : String
  contentLength : Int
  body : ρ

/-- `remoteBlobAccess.Put`. `newRequest` is the error `http.NewRequest` gives for a URL, and
`httpDo` what `ctxhttp.Do` gives for a request, with the body's state after the client is done
with it. It returns the error and the reader's state. -/
def put {ρ : Type} (ba : RemoteBlobAccess) (newRequest : String → Option Error)
    (httpDo : PutRequest ρ → Except Error Nat × ρ) (close : ρ → ρ) (_instanceName : String)
    (digest : Digest) (sizeBytes : Int) (r : ρ) : Option Error × ρ :=
  match newRequest (ba.url digest) with
  | some err => (some err, close r)
  | none =>
    match httpDo ⟨ba.url digest, sizeBytes, r⟩ with
    | (.error err, r) => (some err, r)
    | (.ok _, r) => (none, r)

theorem put_of_response {ρ : Type} {ba : RemoteBlobAccess} {newRequest : String → Option Error}
    {httpDo : PutRequest ρ → Except Error Nat × ρ} (close : ρ → ρ) (instanceName : String)
    {digest : Digest} {sizeBytes : Int} {r r' : ρ} {statusCode : Nat}
    (h : newRequest (ba.url digest) = none)
    (hdo : httpDo ⟨ba.url digest, sizeBytes, r⟩ = (.ok statusCode, r')) :
    put ba newRequest httpDo close instanceName digest sizeBytes r = (none, r') := by
  simp only [put, h, hdo]

/-- `remoteBlobAccess.Delete`. -/
def delete : Error :=
  .status .unimplemented "Bazel HTTP caching protocol does not support object deletion"

/-- The loop of `remoteBlobAccess.FindMissing`, with the digests found missing so far; `httpHead`
is what `ctxhttp.Head` gives for a URL. -/
def findMissingLoop (ba : RemoteBlobAccess) (httpHead : String → Except Error Nat)
    (statusText : Nat → String) : List Digest → List Digest → Except Error (List Digest)
  | missing, [] => .ok missing
  | missing, digest :: digests =>
    match httpHead (ba.url digest) with
    | .error err => .error err
    | .ok statusCode =>
      if statusCode = statusNotFound then
        findMissingLoop ba httpHead statusText (missing ++ [digest]) digests
      else if statusCode = statusOK then findMissingLoop ba httpHead statusText missing digests
      else .error (convertHTTPUnexpectedStatus statusText statusCode)

/-- `remoteBlobAccess.FindMissing`. -/
def findMissing (ba : RemoteBlobAccess) (httpHead : String → Except Error Nat)
    (statusText : Nat → String) (_instanceName : String) (digests : List Digest) :
    Except Error (List Digest) :=
  findMissingLoop ba httpHead statusText [] digests

/-- What the cache answers to `HEAD` for a digest: `some true` for 404, `some false` for 200, and
`none` for a transport error or another status. -/
def headMissing (ba : RemoteBlobAccess) (httpHead : String → Except Error Nat) (digest : Digest) :
    Option Bool :=
  match httpHead (ba.url digest) with
  | .ok statusCode =>
    if statusCode = statusNotFound then some true
    else if statusCode = statusOK then some false
    else none
  | .error _ => none

def headError (ba : RemoteBlobAccess) (httpHead : String → Except Error Nat)
    (statusText : Nat → String) (digest : Digest) : Error :=
  match httpHead (ba.url digest) with
  | .ok statusCode => convertHTTPUnexpectedStatus statusText statusCode
  | .error err => err

section FindMissing
variable {ba : RemoteBlobAccess} {httpHead : String → Except Error Nat} {statusText : Nat → String}

theorem findMissingLoop_cons (missing : List Digest) (digest : Digest) (digests : List Digest) :
    findMissingLoop ba httpHead statusText missing (digest :: digests) =
      match headMissing ba httpHead digest with
      | some b =>
        findMissingLoop ba httpHead statusText (if b then missing ++ [digest] else missing) digests
      | none => .error (headError ba httpHead statusText digest) := by
  rw [findMissingLoop, headMissing, headError]
  cases httpHead (ba.url digest) with
  | error err => rfl
  | ok statusCode =>
    dsimp only
    split_ifs <;> rfl

theorem findMissingLoop_of_all (missing : List Digest) :
    ∀ digests : List Digest, (∀ d ∈ digests, headMissing ba httpHead d ≠ none) →
      findMissingLoop ba httpHead statusText missing digests =
        .ok (missing ++ digests.filter fun d => headMissing ba httpHead d = some true)
  | [], _ => by simp [findMissingLoop]
  | d :: digests, h => by
    obtain ⟨b, hb⟩ := Option.ne_none_iff_exists'.mp (h d (List.mem_cons_self d digests))
    rw [findMissingLoop_cons, hb]
    dsimp only
    rw [findMissingLoop_of_all _ digests fun d' hd' => h d' (List.mem_cons_of_mem d hd')]
    cases b <;> simp [hb]

theorem findMissingLoop_of_first (missing pre : List Digest) (d : Digest) (post : List Digest)
    (hpre : ∀ d' ∈ pre, headMissing ba httpHead d' ≠ none) (hd : headMissing ba httpHead d = none) :
    findMissingLoop ba httpHead statusText missing (pre ++ d :: post) =
      .error (headError ba httpHead statusText d) := by
  induction pre generalizing missing with
  | nil => rw [List.nil_append, findMissingLoop_cons, hd]
  | cons d' pre ih =>
    obtain ⟨b, hb⟩ := Option.ne_none_iff_exists'.mp (hpre d' (List.mem_cons_self d' pre))
    rw [List.cons_append, findMissingLoop_cons, hb]
    exact ih _ fun d'' hd'' => hpre d'' (List.mem_cons_of_mem d' hd'')

end FindMissing

end RemoteBlobAccess

open RemoteBlobAccess in
/-- `FindMissing` returns, in order and with duplicates, the digests whose `HEAD` gives 404 when
every `HEAD` gives 404 or 200; otherwise it returns the error of the first digest whose `HEAD`
fails or gives another status, and no digests. The instance name is not looked at. -/
theorem remoteBlobAccess_findMissing (ba : RemoteBlobAccess) (httpHead : String → Except Error Nat)
    (statusText : Nat → String) (instanceName : String) (digests : List Digest) :
    ((∀ d ∈ digests, headMissing ba httpHead d ≠ none) →
      findMissing ba httpHead statusText instanceName digests =
        .ok (digests.filter fun d => headMissing ba httpHead d = some true)) ∧
    ∀ pre d post, digests = pre ++ d :: post → (∀ d' ∈ pre, headMissing ba httpHead d' ≠ none) →
      headMissing ba httpHead d = none →
      findMissing ba httpHead statusText instanceName digests =
        .error (headError ba httpHead statusText d) :=
  ⟨fun h => by simpa using findMissingLoop_of_all [] digests h,
    fun pre d post hd hpre hnone => hd ▸ findMissingLoop_of_first [] pre d post hpre hnone⟩

theorem remoteBlobAccess_findMissing_two :
    let ba : RemoteBlobAccess := ⟨"http://cache", "cas"⟩
    let httpHead : String → Except Error Nat :=
      fun u => if u = "http://cache/cas/ab" then .ok 404 else .ok 200
    RemoteBlobAccess.findMissing ba httpHead (fun _ => "") "" [⟨"ab", 1⟩, ⟨"cd", 1⟩] =
      .ok [⟨"ab", 1⟩] := by
  intro ba httpHead
  rw [(remoteBlobAccess_findMissing ba httpHead (fun _ => "") "" _).1 (by decide)]
  rfl

end Buildbarn.Blobstore
