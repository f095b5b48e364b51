import Buildbarn.Blobstore.Digest

/-! The ByteStream resource names. The server's `parseResourceNameRead` and
`parseResourceNameWrite` are one parser of `/`-separated fields with different keywords; the client
`contentAddressableStorageBlobAccess` builds the names with `fmt.Sprintf`. A name is accepted
exactly when its fields are an optional instance, the keywords, the hash and a decimal `int64`. -/

namespace Buildbarn.Blobstore

/-- The parser both resource-name forms share, on the fields of the name: `n` fields, or `n + 1`
with the instance first; each keyword `(k, w)` is the `k`-th field from the end; the hash and the
size are the last two. The digest is `none`, a nil pointer, when the name has neither form. -/
def parseFields (n : Nat) (keywords : List (Nat × String)) (fields : List String) :
    String × Option Digest :=
  if (fields.length ≠ n ∧ fields.length ≠ n + 1) ∨
      !keywords.all (fun p => fields.getD (fields.length - p.1) "" == p.2) then ("", none)
  else
    match parseInt (fields.getD (fields.length - 1) "") with
    | none => ("", none)
    | some size =>
      (if fields.length = n + 1 then fields.getD 0 "" else "",
        some ⟨fields.getD (fields.length - 2) "", size⟩)

/-- `strings.FieldsFunc(resourceName, func(r rune) bool { return r == '/' })`. -/
def resourceFields (resourceName : String) : List String := fieldsFunc resourceName (· == '/')

/-- `parseResourceNameRead`: `blobs/${hash}/${size}` or `${instance}/blobs/${hash}/${size}`. -/
def parseResourceNameRead (resourceName : String) : String × Option Digest :=
  parseFields 3 [(3, "blobs")] (resourceFields resourceName)

/-- `parseResourceNameWrite`: `uploads/${uuid}/blobs/${hash}/${size}`, with or without an instance
in front. -/
def parseResourceNameWrite (resourceName : String) : String × Option Digest :=
  parseFields 5 [(5, "uploads"), (3, "blobs")] (resourceFields resourceName)

/-- The name `contentAddressableStorageBlobAccess.Get` reads: `blobs/%s/%d`, or `%s/blobs/%s/%d`
after a non-empty instance. -/
def readResourceName (instanceName hash : String) (sizeBytes : Int) : String :=
  if instanceName = "" then "blobs/" ++ hash ++ "/" ++ formatInt sizeBytes
  else instanceName ++ "/blobs/" ++ hash ++ "/" ++ formatInt sizeBytes

/-- The name `contentAddressableStorageBlobAccess.Put` writes: `uploads/%s/blobs/%s/%d`, or the same
after a non-empty instance. -/
def writeResourceName (instanceName : String) (uuid : UUID) (hash : String) (sizeBytes : Int) :
    String :=
  if instanceName = "" then
    "uploads/" ++ uuid.toString ++ "/blobs/" ++ hash ++ "/" ++ formatInt sizeBytes
  else
    instanceName ++ "/uploads/" ++ uuid.toString ++ "/blobs/" ++ hash ++ "/" ++
      formatInt sizeBytes

/-! ### The fields of a name -/

def instanceField (instanceName : String) : List String :=
  if instanceName = "" then [] else [instanceName]

theorem ne_empty_of_mem_resourceFields {s f : String} (hf : f ∈ resourceFields s) : f ≠ "" := by
  rintro rfl
  exact (mem_fieldsFunc hf).1 rfl

theorem getD_cons_sub {rest : List String} {f : String} {n k : Nat} (hk : k ≤ n) :
    (f :: rest).getD (n + 1 - k) "" = rest.getD (n - k) "" := by
  rw [show n + 1 - k = n - k + 1 by omega, List.getD_cons_succ]

theorem parseFields_guard_iff {n : Nat} {keywords : List (Nat × String)} {fields : List String} :
    ¬((fields.length ≠ n ∧ fields.length ≠ n + 1) ∨
        (!keywords.all (fun p => fields.getD (fields.length - p.1) "" == p.2)) = true) ↔
      (fields.length = n ∨ fields.length = n + 1) ∧
        ∀ p ∈ keywords, fields.getD (fields.length - p.1) "" = p.2 := by
  simp only [not_or, not_and_or, ne_eq, not_not, Bool.not_eq_true, Bool.not_eq_eq_eq_not,
    Bool.not_true, Bool.not_eq_false, List.all_eq_true, beq_iff_eq]

/-- What the shared parser accepts: the fields after the instance field are `n` fields that carry
the keywords, the hash and the size. -/
theorem parseFields_eq_some {n : Nat} {keywords : List (Nat × String)} (hn : 2 ≤ n)
    (hk : ∀ p ∈ keywords, p.1 ≤ n) {fields : List String} (hne : ∀ f ∈ fields, f ≠ "")
    {i : String} {d : Digest} :
    parseFields n keywords fields = (i, some d) ↔
      ∃ rest, fields = instanceField i ++ rest ∧ rest.length = n ∧
        (∀ p ∈ keywords, rest.getD (n - p.1) "" = p.2) ∧ rest.getD (n - 2) "" = d.hash ∧
        parseInt (rest.getD (n - 1) "") = some d.sizeBytes := by
  constructor
  · intro h
    unfold parseFields at h
    by_cases hc : (fields.length ≠ n ∧ fields.length ≠ n + 1) ∨
        (!keywords.all (fun p => fields.getD (fields.length - p.1) "" == p.2)) = true
    · rw [if_pos hc] at h; cases h
    rw [if_neg hc] at h
    obtain ⟨hl, hkw⟩ := parseFields_guard_iff.mp hc
    cases hp : parseInt (fields.getD (fields.length - 1) "") with
    | none => rw [hp] at h; cases h
    | some size =>
      rw [hp] at h
      simp only [Prod.mk.injEq, Option.some.injEq] at h
      obtain ⟨hi, rfl⟩ := h
      rcases hl with hl | hl
      · -- no instance field
        obtain rfl : i = "" := by rw [← hi, if_neg (by omega)]
        subst hl
        exact ⟨fields, by simp [instanceField], rfl, hkw, rfl, hp⟩
      · -- the instance is the first field
        have hne0 : fields ≠ [] := by rintro rfl; simp at hl
        obtain ⟨f, rest, rfl⟩ := List.exists_cons_of_ne_nil hne0
        replace hl : rest.length = n := by simpa using hl
        obtain rfl : i = f := by rw [← hi, if_pos (by simp [hl])]; rfl
        have hf : i ≠ "" := hne _ (List.mem_cons_self _ _)
        simp only [List.length_cons, hl] at hkw hp ⊢
        refine ⟨rest, by simp [instanceField, hf], hl, fun p hp' => ?_, ?_, ?_⟩
        · rw [← getD_cons_sub (hk p hp')]; exact hkw p hp'
        · exact (getD_cons_sub (by omega)).symm
        · rw [← getD_cons_sub (by omega)]; exact hp
  · rintro ⟨rest, rfl, hlen, hkw, hh, hs⟩
    unfold parseFields
    by_cases hi : i = ""
    · -- no instance field
      subst hi
      simp only [instanceField, if_true, List.nil_append]
      rw [if_neg (parseFields_guard_iff.mpr ⟨.inl hlen, by rwa [hlen]⟩), hlen, hs, hh]
      simp
    · -- the instance is the first field
      simp only [instanceField, hi, if_false, List.singleton_append]
      rw [if_neg (parseFields_guard_iff.mpr ⟨.inr (by simp [hlen]), fun p hp' => ?_⟩)]
      · rw [List.length_cons, hlen, getD_cons_sub (by omega : 1 ≤ n), hs,
          getD_cons_sub (by omega : 2 ≤ n), hh]
        simp
      · rw [List.length_cons, hlen]
        exact (getD_cons_sub (hk p hp')).trans (hkw p hp')

theorem parseFields_of_none {n : Nat} {keywords : List (Nat × String)} {fields : List String}
    (h : (parseFields n keywords fields).2 = none) : parseFields n keywords fields = ("", none) := by
  unfold parseFields at h ⊢
  split_ifs at h ⊢
  · rfl
  all_goals
    cases hp : parseInt (fields.getD (fields.length - 1) "") with
    | none => rfl
    | some size => rw [hp] at h; cases h

theorem parseResourceNameRead_eq_some {s i : String} {d : Digest} :
    parseResourceNameRead s = (i, some d) ↔
      ∃ t, resourceFields s = instanceField i ++ ["blobs", d.hash, t] ∧
        parseInt t = some d.sizeBytes := by
  rw [parseResourceNameRead, parseFields_eq_some (by decide) (by simp)
    (fun _ hf => ne_empty_of_mem_resourceFields hf)]
  constructor
  · rintro ⟨rest, hf, hlen, hkw, hh, hs⟩
    obtain ⟨a, b, c, rfl⟩ := List.length_eq_three.mp hlen
    obtain rfl : a = "blobs" := hkw _ (List.mem_singleton_self _)
    exact ⟨c, hf ▸ hh ▸ rfl, hs⟩
  · rintro ⟨t, hf, hs⟩
    exact ⟨["blobs", d.hash, t], hf, rfl, by simp, rfl, hs⟩

theorem parseResourceNameWrite_eq_some {s i : String} {d : Digest} :
    parseResourceNameWrite s = (i, some d) ↔
      ∃ u t, resourceFields s = instanceField i ++ ["uploads", u, "blobs", d.hash, t] ∧
        parseInt t = some d.sizeBytes := by
  rw [parseResourceNameWrite, parseFields_eq_some (by decide) (by simp)
    (fun _ hf => ne_empty_of_mem_resourceFields hf)]
  constructor
  · rintro ⟨rest, hf, hlen, hkw, hh, hs⟩
    obtain ⟨a, b, c, e, f, rfl⟩ : ∃ a b c e f, rest = [a, b, c, e, f] := by
      match rest, hlen with
      | [a, b, c, e, f], _ => exact ⟨a, b, c, e, f, rfl⟩
    obtain rfl : a = "uploads" := hkw (5, "uploads") (by simp)
    obtain rfl : c = "blobs" := hkw (3, "blobs") (by simp)
    exact ⟨b, f, hf ▸ hh ▸ rfl, hs⟩
  · rintro ⟨u, t, hf, hs⟩
    exact ⟨["uploads", u, "blobs", d.hash, t], hf, rfl, by simp, rfl, hs⟩

/-! ### Names the client builds -/

def IsSegment (f : String) : Prop := f ≠ "" ∧ '/' ∉ f.data

theorem formatInt_isSegment (n : Int) : IsSegment (formatInt n) := by
  obtain ⟨hn, hn'⟩ := formatInt_chars n
  exact ⟨fun e => hn (by rw [e]; rfl), fun e => by rcases hn' _ e with e | e <;> revert e <;> decide⟩

theorem hexEncodeToString_isSegment {bs : List UInt8} (h : bs ≠ []) :
    IsSegment (hexEncodeToString bs) := by
  refine ⟨fun e => h ?_, fun e => absurd (isLowerHexDigit_of_mem_hexEncodeToString e) (by decide)⟩
  have := length_hexEncodeToString bs
  rw [e] at this
  exact List.length_eq_zero.mp (by change 0 = 2 * bs.length at this; omega)

theorem UUID.dash_mem_toString (u : UUID) : '-' ∈ u.toString.data := by simp [UUID.toString]

theorem UUID.toString_isSegment (u : UUID) : IsSegment u.toString := by
  have hex : ∀ bs : List UInt8, '/' ∉ (hexEncodeToString bs).data := fun _ e =>
    absurd (isLowerHexDigit_of_mem_hexEncodeToString e) (by decide)
  refine ⟨fun e => ?_, by simp [UUID.toString, hex]⟩
  have := u.dash_mem_toString
  rw [e] at this
  cases this

theorem UUID.toString_ne_blobs (u : UUID) : u.toString ≠ "blobs" := fun e => by
  have := u.dash_mem_toString
  rw [e] at this
  revert this
  decide

@[simp] theorem resourceFields_empty : resourceFields "" = [] := by decide

theorem resourceFields_of_isSegment {f : String} (hf : IsSegment f) : resourceFields f = [f] := by
  obtain ⟨cs⟩ := f
  have hsplit : cs.splitOnP (· == '/') = [cs] :=
    List.splitOnP_eq_single _ _ fun c hc h => hf.2 (by rwa [beq_iff_eq.mp h] at hc)
  have hne : cs ≠ [] := fun e => hf.1 (by rw [e])
  simp [resourceFields, fieldsFunc, toList_mk, hsplit, hne]

theorem isSegment_of_mem_resourceFields {s f : String} (hf : f ∈ resourceFields s) :
    IsSegment f := by
  obtain ⟨hne, hc⟩ := mem_fieldsFunc hf
  exact ⟨fun e => hne (by rw [e]; rfl), fun e => by simpa using hc '/' e⟩

theorem instance_slash_free {s i : String} {rest : List String}
    (hf : resourceFields s = instanceField i ++ rest) : '/' ∉ i.data := by
  by_cases hi0 : i = ""
  · simp [hi0]
  · refine (isSegment_of_mem_resourceFields (?_ : i ∈ resourceFields s)).2
    rw [hf]
    simp [instanceField, hi0]

theorem resourceFields_slash (a b : List Char) :
    resourceFields ⟨a ++ '/' :: b⟩ = resourceFields ⟨a⟩ ++ resourceFields ⟨b⟩ :=
  fieldsFunc_append_cons _ (by decide) a b

theorem resourceFields_hexEncodeToString (bs : List UInt8) :
    resourceFields (hexEncodeToString bs) = if bs = [] then [] else [hexEncodeToString bs] := by
  split_ifs with h
  · subst h; rfl
  · exact resourceFields_of_isSegment (hexEncodeToString_isSegment h)

theorem resourceFields_of_slash_free {i : String} (hi : '/' ∉ i.data) :
    resourceFields i = instanceField i := by
  by_cases hi0 : i = ""
  · subst hi0; rfl
  · rw [instanceField, if_neg hi0, resourceFields_of_isSegment ⟨hi0, hi⟩]

theorem resourceFields_readResourceName_eq (i h : String) (n : Int) :
    resourceFields (readResourceName i h n) =
      resourceFields i ++ ("blobs" :: resourceFields h ++ [formatInt n]) := by
  have tail : resourceFields ⟨"blobs".data ++ '/' :: (h.data ++ '/' :: (formatInt n).data)⟩ =
      "blobs" :: resourceFields h ++ [formatInt n] := by
    rw [resourceFields_slash, resourceFields_slash,
      resourceFields_of_isSegment (formatInt_isSegment n)]
    rfl
  by_cases hi : i = ""
  · subst hi
    rw [resourceFields_empty, List.nil_append, ← tail]
    exact congrArg resourceFields (String.ext (by simp [readResourceName]))
  · rw [← tail, ← resourceFields_slash]
    exact congrArg resourceFields (String.ext (by simp [readResourceName, hi]))

theorem resourceFields_writeResourceName_eq (i : String) (u : UUID) (h : String) (n : Int) :
    resourceFields (writeResourceName i u h n) =
      resourceFields i ++ ("uploads" :: u.toString :: "blobs" :: resourceFields h ++
        [formatInt n]) := by
  have tail : resourceFields ⟨"uploads".data ++ '/' :: (u.toString.data ++ '/' ::
      ("blobs".data ++ '/' :: (h.data ++ '/' :: (formatInt n).data)))⟩ =
      "uploads" :: u.toString :: "blobs" :: resourceFields h ++ [formatInt n] := by
    rw [resourceFields_slash, resourceFields_slash, resourceFields_slash, resourceFields_slash,
      resourceFields_of_isSegment (formatInt_isSegment n),
      resourceFields_of_isSegment u.toString_isSegment]
    rfl
  by_cases hi : i = ""
  · subst hi
    rw [resourceFields_empty, List.nil_append, ← tail]
    exact congrArg resourceFields (String.ext (by simp [writeResourceName]))
  · rw [← tail, ← resourceFields_slash]
    exact congrArg resourceFields (String.ext (by simp [writeResourceName, hi]))

theorem resourceFields_readResourceName {i h : String} (hi : '/' ∉ i.data) (hh : IsSegment h)
    (n : Int) :
    resourceFields (readResourceName i h n) = instanceField i ++ ["blobs", h, formatInt n] := by
  rw [resourceFields_readResourceName_eq, resourceFields_of_slash_free hi,
    resourceFields_of_isSegment hh]
  rfl

theorem resourceFields_writeResourceName {i h : String} (hi : '/' ∉ i.data) (u : UUID)
    (hh : IsSegment h) (n : Int) :
    resourceFields (writeResourceName i u h n) =
      instanceField i ++ ["uploads", u.toString, "blobs", h, formatInt n] := by
  rw [resourceFields_writeResourceName_eq, resourceFields_of_slash_free hi,
    resourceFields_of_isSegment hh]
  rfl

/-! ### Round trips -/

theorem parseResourceNameRead_readResourceName {i h : String} (hi : '/' ∉ i.data)
    (hh : IsSegment h) {n : Int} (hn : -2 ^ 63 ≤ n ∧ n < 2 ^ 63) :
    parseResourceNameRead (readResourceName i h n) = (i, some ⟨h, n⟩) :=
  parseResourceNameRead_eq_some.mpr
    ⟨formatInt n, resourceFields_readResourceName hi hh n, parseInt_formatInt n hn⟩

theorem parseResourceNameWrite_writeResourceName {i h : String} (hi : '/' ∉ i.data) (u : UUID)
    (hh : IsSegment h) {n : Int} (hn : -2 ^ 63 ≤ n ∧ n < 2 ^ 63) :
    parseResourceNameWrite (writeResourceName i u h n) = (i, some ⟨h, n⟩) :=
  parseResourceNameWrite_eq_some.mpr
    ⟨u.toString, formatInt n, resourceFields_writeResourceName hi u hh n, parseInt_formatInt n hn⟩

/-! ### Names built from any instance and hash -/

section Built
variable {n : Int}

theorem parseFields_of_long {m : Nat} {keywords : List (Nat × String)} {fields : List String}
    (h : m + 1 < fields.length) : parseFields m keywords fields = ("", none) := by
  rw [parseFields, if_pos (.inl ⟨by omega, by omega⟩)]

theorem parseFields_read_built (hn : -2 ^ 63 ≤ n ∧ n < 2 ^ 63) (fields : List String)
    (hash : String) :
    parseFields 3 [(3, "blobs")] (fields ++ ["blobs", hash, formatInt n]) =
      if fields.length ≤ 1 then (fields.headD "", some ⟨hash, n⟩) else ("", none) := by
  match fields with
  | [] | [_] => simp [parseFields, parseInt_formatInt n hn]
  | _ :: _ :: rest =>
    rw [parseFields_of_long (by simp only [List.length_append, List.length_cons]; omega),
      if_neg (by simp only [List.length_cons]; omega)]

theorem parseFields_read_empty (hn : -2 ^ 63 ≤ n ∧ n < 2 ^ 63) (fields : List String) :
    parseFields 3 [(3, "blobs")] (fields ++ ["blobs", formatInt n]) =
      if fields.getLast? = some "blobs" ∧ fields.dropLast.length ≤ 1 then
        (fields.dropLast.headD "", some ⟨"blobs", n⟩)
      else ("", none) := by
  match fields with
  | [] => simp [parseFields]
  | [a] | [_, a] => by_cases ha : a = "blobs" <;> simp [parseFields, parseInt_formatInt n hn, ha]
  | _ :: _ :: _ :: rest =>
    rw [parseFields_of_long (by simp only [List.length_append, List.length_cons]; omega),
      if_neg (by simp only [List.length_dropLast, List.length_cons]; omega)]

theorem parseFields_write_built (hn : -2 ^ 63 ≤ n ∧ n < 2 ^ 63) (fields : List String)
    (u hash : String) :
    parseFields 5 [(5, "uploads"), (3, "blobs")]
        (fields ++ ["uploads", u, "blobs", hash, formatInt n]) =
      if fields.length ≤ 1 then (fields.headD "", some ⟨hash, n⟩) else ("", none) := by
  match fields with
  | [] | [_] => simp [parseFields, parseInt_formatInt n hn]
  | _ :: _ :: rest =>
    rw [parseFields_of_long (by simp only [List.length_append, List.length_cons]; omega),
      if_neg (by simp only [List.length_cons]; omega)]

theorem parseFields_write_empty (fields : List String) {u : String} (hu : u ≠ "blobs") :
    parseFields 5 [(5, "uploads"), (3, "blobs")] (fields ++ ["uploads", u, "blobs", formatInt n]) =
      ("", none) := by
  match fields with
  | [] | [_] | [_, _] => simp [parseFields, hu]
  | _ :: _ :: _ :: rest =>
    exact parseFields_of_long (by simp only [List.length_append, List.length_cons]; omega)

end Built

theorem headD_resourceFields_eq_iff (i : String) :
    (resourceFields i).length ≤ 1 ∧ (resourceFields i).headD "" = i ↔ '/' ∉ i.data := by
  refine ⟨fun ⟨_, he⟩ => ?_, fun hi => ?_⟩
  · rw [← he]
    cases hf : resourceFields i with
    | nil => simp
    | cons f rest =>
      have hmem : f ∈ resourceFields i := hf ▸ List.mem_cons_self f rest
      exact (isSegment_of_mem_resourceFields hmem).2
  · rw [resourceFields_of_slash_free hi]
    by_cases hi0 : i = "" <;> simp [instanceField, hi0]


/-- What the server's parsers make of the names the client builds, for every instance name and
hash. With a non-empty hash both give the digest when the instance has at most one field, with
that field as the instance; the instance comes back unchanged exactly when it has no slash. With an
empty hash `Write`'s name is rejected, and `Read`'s is accepted only when the instance ends in a
field `blobs`, which the parser takes for the keyword, reading the keyword as the hash. -/
theorem resourceName_roundTrip (d : UtilDigest) (u : UUID) :
    let fields := resourceFields d.instanceName
    let hash := hexEncodeToString d.hash
    parseResourceNameRead (readResourceName d.instanceName hash d.sizeBytes) =
        (if d.hash ≠ [] then
          if fields.length ≤ 1 then (fields.headD "", some ⟨hash, d.sizeBytes⟩) else ("", none)
        else if fields.getLast? = some "blobs" ∧ fields.dropLast.length ≤ 1 then
          (fields.dropLast.headD "", some ⟨"blobs", d.sizeBytes⟩)
        else ("", none)) ∧
      parseResourceNameWrite (writeResourceName d.instanceName u hash d.sizeBytes) =
        (if d.hash ≠ [] ∧ fields.length ≤ 1 then (fields.headD "", some ⟨hash, d.sizeBytes⟩)
        else ("", none)) ∧
      (fields.length ≤ 1 ∧ fields.headD "" = d.instanceName ↔ '/' ∉ d.instanceName.data) := by
  intro fields hash
  have hn := d.sizeBytes_int64
  refine ⟨?_, ?_, headD_resourceFields_eq_iff d.instanceName⟩
  · rw [parseResourceNameRead, resourceFields_readResourceName_eq, resourceFields_hexEncodeToString]
    by_cases hh : d.hash = []
    · simpa [hh] using parseFields_read_empty hn fields
    · simpa [hh] using parseFields_read_built hn fields hash
  · rw [parseResourceNameWrite, resourceFields_writeResourceName_eq,
      resourceFields_hexEncodeToString]
    by_cases hh : d.hash = []
    · simpa [hh] using parseFields_write_empty fields u.toString_ne_blobs
    · simpa [hh] using parseFields_write_built hn fields u.toString hash

/-- Instances with a slash at either end come back without it, and the instance `blobs` with an
empty hash makes a name that parses to the hash `blobs`. -/
theorem resourceName_roundTrip_slash :
    parseResourceNameRead (readResourceName "a/" (hexEncodeToString [1]) 1) =
        ("a", some ⟨"01", 1⟩) ∧
      parseResourceNameRead (readResourceName "/a" (hexEncodeToString [1]) 1) =
        ("a", some ⟨"01", 1⟩) ∧
      parseResourceNameRead (readResourceName "a/b" (hexEncodeToString [1]) 1) = ("", none) ∧
      parseResourceNameRead (readResourceName "blobs" (hexEncodeToString []) 1) =
        ("", some ⟨"blobs", 1⟩) := by
  decide

/-- The names each parser accepts: its fields are an optional instance, the keywords, the hash and
a field `strconv.ParseInt` reads as the size; every other name gives an empty instance and no
digest. The size is an `int64`, and the name the client builds from the result parses to the same
result. -/
theorem parseResourceName_accepts (s : String) :
    (∀ i d, parseResourceNameRead s = (i, some d) ↔
      ∃ t, resourceFields s = instanceField i ++ ["blobs", d.hash, t] ∧
        parseInt t = some d.sizeBytes) ∧
    (∀ i d, parseResourceNameWrite s = (i, some d) ↔
      ∃ u t, resourceFields s = instanceField i ++ ["uploads", u, "blobs", d.hash, t] ∧
        parseInt t = some d.sizeBytes) ∧
    ((parseResourceNameRead s).2 = none → parseResourceNameRead s = ("", none)) ∧
    ((parseResourceNameWrite s).2 = none → parseResourceNameWrite s = ("", none)) ∧
    (∀ i d, parseResourceNameRead s = (i, some d) →
      -2 ^ 63 ≤ d.sizeBytes ∧ d.sizeBytes < 2 ^ 63 ∧
        parseResourceNameRead (readResourceName i d.hash d.sizeBytes) = (i, some d)) ∧
    (∀ i d (u : UUID), parseResourceNameWrite s = (i, some d) →
      -2 ^ 63 ≤ d.sizeBytes ∧ d.sizeBytes < 2 ^ 63 ∧
        parseResourceNameWrite (writeResourceName i u d.hash d.sizeBytes) = (i, some d)) := by
  refine ⟨fun _ _ => parseResourceNameRead_eq_some, fun _ _ => parseResourceNameWrite_eq_some,
    parseFields_of_none, parseFields_of_none, fun i d h => ?_, fun i d u h => ?_⟩
  · obtain ⟨t, hf, ht⟩ := parseResourceNameRead_eq_some.mp h
    have hh : IsSegment d.hash := isSegment_of_mem_resourceFields
      (by simp [hf] : d.hash ∈ resourceFields s)
    have hr := parseInt_range ht
    exact ⟨hr.1, hr.2, parseResourceNameRead_readResourceName (instance_slash_free hf) hh hr⟩
  · obtain ⟨_, t, hf, ht⟩ := parseResourceNameWrite_eq_some.mp h
    have hh : IsSegment d.hash := isSegment_of_mem_resourceFields
      (by simp [hf] : d.hash ∈ resourceFields s)
    have hr := parseInt_range ht
    exact ⟨hr.1, hr.2, parseResourceNameWrite_writeResourceName (instance_slash_free hf) u hh hr⟩

/-- A name with an empty leading field and a signed, zero-padded size is accepted, and is not the
name the client builds from what it parses to. -/
theorem parseResourceNameRead_signed :
    parseResourceNameRead "/blobs/abc/-05" = ("", some ⟨"abc", -5⟩) ∧
      readResourceName "" "abc" (-5) ≠ "/blobs/abc/-05" := by
  decide

end Buildbarn.Blobstore
