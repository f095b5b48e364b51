import Buildbarn.Blobstore.Sharding.GetBackend

/-! `shardingBlobAccess.FindMissing`. A first loop groups the digests by the backend `getBackend`
picks; then one goroutine per group sends its backend's answer on a channel of one slot per group,
while the caller's loop receives one result per group and joins them. The goroutines and the loop
are a transition system over every interleaving: each backend is asked once, about exactly its
digests, no party blocks forever, and the loop returns the join of the answers. -/

namespace Buildbarn.Blobstore.Sharding
open scoped List

variable {β : Type}

/-! ### Grouping the digests by backend -/

section Grouping
variable [DecidableEq β]

/-- `digestsPerBackend[backend] = append(digestsPerBackend[backend], digest)`, on the map as the
list of its entries in the order their keys were first met. -/
def appendDigest (backend : Option β) (digest : UtilDigest) :
    List (Option β × List UtilDigest) → List (Option β × List UtilDigest)
  | [] => [(backend, [digest])]
  | (b, digests) :: rest =>
    if b = backend then (b, digests ++ [digest]) :: rest
    else (b, digests) :: appendDigest backend digest rest

/-- The loop of `FindMissing` that fills `digestsPerBackend`. -/
def digestsPerBackend (ba : ShardingBlobAccess β) :
    List (Option β × List UtilDigest) → List UtilDigest →
      Outcome (List (Option β × List UtilDigest))
  | perBackend, [] => .returns perBackend
  | perBackend, digest :: digests =>
    match getBackend ba digest with
    | .returns backend => digestsPerBackend ba (appendDigest backend digest perBackend) digests
    | .aborts reason => .aborts reason

def entry (route : UtilDigest → Option β) (seen : List UtilDigest) (backend : Option β) :
    Option β × List UtilDigest :=
  (backend, seen.filter (route · = backend))

theorem entry_append_singleton (route : UtilDigest → Option β)
    (seen : List UtilDigest) (d : UtilDigest) {backend : Option β} (h : route d ≠ backend) :
    entry route (seen ++ [d]) backend = entry route seen backend := by
  simp [entry, h]

theorem appendDigest_entries (route : UtilDigest → Option β)
    {seen : List UtilDigest} {d : UtilDigest} :
    ∀ {keys : List (Option β)}, keys.Nodup →
      (route d ∉ keys → ∀ d' ∈ seen, route d' ≠ route d) →
      appendDigest (route d) d (keys.map (entry route seen)) =
        (if route d ∈ keys then keys else keys ++ [route d]).map (entry route (seen ++ [d]))
  | [], _, hnew => by
    have hseen : seen.filter (route · = route d) = [] :=
      List.filter_eq_nil_iff.mpr fun d' hd' => by simpa using hnew (by simp) d' hd'
    simp [appendDigest, entry, hseen]
  | k :: keys, hnodup, hnew => by
    obtain ⟨hk, hkeys⟩ := List.nodup_cons.mp hnodup
    have hrest : ∀ k' ∈ keys, k' ≠ route d → entry route (seen ++ [d]) k' = entry route seen k' :=
      fun k' _ hne => entry_append_singleton route seen d (Ne.symm hne)
    by_cases hkd : k = route d
    · subst hkd
      simp only [List.map_cons, appendDigest, entry, if_true, List.mem_cons_self, ite_true,
        List.filter_append, decide_True, List.filter_cons_of_pos, List.filter_nil]
      refine congrArg _ (List.map_congr_left fun k' hk' => (hrest k' hk' ?_).symm)
      rintro rfl
      exact hk hk'
    · have hnew' : route d ∉ keys → ∀ d' ∈ seen, route d' ≠ route d :=
        fun h => hnew (by simp [Ne.symm hkd, h])
      simp only [List.map_cons, appendDigest, hkd, if_false, appendDigest_entries route hkeys hnew',
        List.mem_cons, Ne.symm hkd, false_or]
      split <;> simp only [List.map_cons, List.map_append, List.cons_append,
        entry_append_singleton route seen d (Ne.symm hkd)] <;> rfl

/-- The grouping loop, from a map with the entries of `keys` after `seen`, ends with the entries
of the keys met so far after all the digests. -/
theorem digestsPerBackend_entries (ba : ShardingBlobAccess β)
    (route : UtilDigest → Option β) :
    ∀ (digests seen : List UtilDigest) (keys : List (Option β)),
      (∀ d ∈ digests, getBackend ba d = .returns (route d)) → keys.Nodup →
      (∀ k, k ∈ keys ↔ ∃ d ∈ seen, route d = k) →
      ∃ keys' : List (Option β), digestsPerBackend ba (keys.map (entry route seen)) digests =
          .returns (keys'.map (entry route (seen ++ digests))) ∧ keys'.Nodup ∧
        ∀ k, k ∈ keys' ↔ ∃ d ∈ seen ++ digests, route d = k
  | [], seen, keys, _, hnodup, hkeys => ⟨keys, by simp [digestsPerBackend], hnodup, by simpa using hkeys⟩
  | d :: digests, seen, keys, hroute, hnodup, hkeys => by
    have hnew : route d ∉ keys → ∀ d' ∈ seen, route d' ≠ route d :=
      fun h d' hd' he => h ((hkeys _).mpr ⟨d', hd', he⟩)
    have hnodup' : (if route d ∈ keys then keys else keys ++ [route d]).Nodup := by
      split
      · exact hnodup
      · rw [← List.concat_eq_append]; exact hnodup.concat ‹_›
    have hkeys' : ∀ k, k ∈ (if route d ∈ keys then keys else keys ++ [route d]) ↔
        ∃ d' ∈ seen ++ [d], route d' = k := by
      intro k
      have hseen : (∃ d' ∈ seen ++ [d], route d' = k) ↔ k ∈ keys ∨ route d = k := by
        simp [hkeys, or_and_right, exists_or]
      rw [hseen]
      split
      · exact ⟨Or.inl, fun h => h.elim id (· ▸ ‹_›)⟩
      · simp [eq_comm]
    obtain ⟨keys', h, hn, hk⟩ := digestsPerBackend_entries ba route digests (seen ++ [d]) _
      (fun d' hd' => hroute d' (List.mem_cons_of_mem d hd')) hnodup' hkeys'
    refine ⟨keys', ?_, hn, by simpa using hk⟩
    simp only [digestsPerBackend, hroute d (List.mem_cons_self d digests)]
    rw [appendDigest_entries route hnodup hnew, h, List.append_assoc, List.singleton_append]

end Grouping

/-- The goroutines `FindMissing` starts, one per entry of `digestsPerBackend`. The one of the nil
backend panics calling `FindMissing` on it, which stops the process: the loop waits for its
result. -/
def spawn : List (Option β × List UtilDigest) → Outcome (List (β × List UtilDigest))
  | [] => .returns []
  | (none, _) :: _ => .aborts "invalid memory address or nil pointer dereference"
  | (some backend, digests) :: rest =>
    match spawn rest with
    | .returns groups => .returns ((backend, digests) :: groups)
    | .aborts reason => .aborts reason

theorem spawn_map_some (groups : List (β × List UtilDigest)) :
    spawn (groups.map fun g => (some g.1, g.2)) = .returns groups := by
  induction groups with
  | nil => rfl
  | cons g groups ih => simp [spawn, ih]

/-! ### The goroutines and the receiving loop -/

/-- `findMissingResults`. -/
structure FindMissingResults where
  missing : List UtilDigest
  err : Option Error
  deriving DecidableEq

/-- One turn of the loop that recombines results. -/
def recombine (missingDigests : List UtilDigest) (err : Option Error)
    (results : FindMissingResults) : List UtilDigest × Option Error :=
  if results.err = none then (missingDigests ++ results.missing, err)
  else (missingDigests, results.err)

def recombineAll (received : List FindMissingResults) : List UtilDigest × Option Error :=
  received.foldl (fun acc results => recombine acc.1 acc.2 results) ([], none)

theorem foldl_recombine (received : List FindMissingResults) :
    ∀ (missingDigests : List UtilDigest) (err : Option Error),
      received.foldl (fun acc results => recombine acc.1 acc.2 results) (missingDigests, err) =
        (missingDigests ++ (received.filter (·.err = none)).flatMap (·.missing),
          (err.toList ++ received.filterMap (·.err)).getLast?) := by
  induction received with
  | nil => intro m err; cases err <;> simp
  | cons results received ih =>
    intro m err
    rw [List.foldl_cons]
    cases h : results.err with
    | none =>
      rw [show recombine m err results = (m ++ results.missing, err) from if_pos h, ih,
        List.filterMap_cons_none h]
      simp [h]
    | some e =>
      rw [show recombine m err results = (m, some e) by simp [recombine, h], ih,
        List.filterMap_cons_some h, List.getLast?_append_of_ne_nil _ (List.cons_ne_nil _ _)]
      simp [h]

theorem recombineAll_eq (received : List FindMissingResults) :
    recombineAll received =
      ((received.filter (·.err = none)).flatMap (·.missing),
        (received.filterMap (·.err)).getLast?) := by
  simpa using foldl_recombine received [] none

theorem recombineAll_append_singleton (received : List FindMissingResults)
    (results : FindMissingResults) :
    recombineAll (received ++ [results]) =
      recombine (recombineAll received).1 (recombineAll received).2 results := by
  simp [recombineAll, List.foldl_append]

/-- The goroutines of `FindMissing` and its receiving loop: the goroutines still in
`callFindMissing`, those holding a result to send, the buffer of `resultsChan` (oldest first),
and the loop's counter `i`, `missingDigests` and `err`. -/
structure FanOut (β : Type) where
  calling : List (β × List UtilDigest)
  sending : List FindMissingResults
  resultsChan : List FindMissingResults
  i : Nat
  missingDigests : List UtilDigest
  err : Option Error
  deriving DecidableEq

namespace FanOut

/-- Every goroutine started, before any of them or the loop has run. Starting them one by one
commutes with their own steps, which touch none of the loop's variables. -/
def start (groups : List (β × List UtilDigest)) : FanOut β := ⟨groups, [], [], 0, [], none⟩

/-- One step of one party. `answer backend digests results` says what a backend may answer to
`FindMissing`; `n` is `len(digestsPerBackend)`, the channel's capacity and the loop's bound. -/
inductive Step (answer : β → List UtilDigest → FindMissingResults → Prop) (n : Nat) :
    FanOut β → FanOut β → Prop
  /-- A goroutine's `callFindMissing` returns its backend's answer. -/
  | call (s : FanOut β) (pre post : List (β × List UtilDigest)) (backend : β)
      (digests : List UtilDigest) (results : FindMissingResults) :
      s.calling = pre ++ (backend, digests) :: post → answer backend digests results →
      Step answer n s { s with calling := pre ++ post, sending := results :: s.sending }
  /-- A goroutine sends its result, when the channel has room. -/
  | send (s : FanOut β) (pre post : List FindMissingResults) (results : FindMissingResults) :
      s.sending = pre ++ results :: post → s.resultsChan.length < n →
      Step answer n s { s with sending := pre ++ post, resultsChan := s.resultsChan ++ [results] }
  /-- The loop, while `i < n`, receives the oldest result and recombines it. -/
  | receive (s : FanOut β) (results : FindMissingResults) (rest : List FindMissingResults) :
      s.resultsChan = results :: rest → s.i < n →
      Step answer n s
        { s with
          resultsChan := rest
          i := s.i + 1
          missingDigests := (recombine s.missingDigests s.err results).1
          err := (recombine s.missingDigests s.err results).2 }

inductive Reachable (answer : β → List UtilDigest → FindMissingResults → Prop)
    (groups : List (β × List UtilDigest)) : FanOut β → Prop
  | start : Reachable answer groups (start groups)
  | step {s t : FanOut β} : Reachable answer groups s → Step answer groups.length s t →
      Reachable answer groups t

section Invariant
variable {answer : β → List UtilDigest → FindMissingResults → Prop}
  {groups : List (β × List UtilDigest)}

/-- An account of a state: `log` pairs each call made with its result, and `received` lists the
results the loop took, in order. -/
structure Accounted (answer : β → List UtilDigest → FindMissingResults → Prop)
    (groups : List (β × List UtilDigest)) (s : FanOut β)
    (log : List ((β × List UtilDigest) × FindMissingResults))
    (received : List FindMissingResults) : Prop where
  calls : log.map Prod.fst ++ s.calling ~ groups
  answered : ∀ x ∈ log, answer x.1.1 x.1.2 x.2
  results : received ++ s.resultsChan ++ s.sending ~ log.map Prod.snd
  length_received : received.length = s.i
  recombined : (s.missingDigests, s.err) = recombineAll received

theorem accounted_start : Accounted answer groups (start groups) [] [] :=
  ⟨by simp [start], by simp, by simp [start], rfl, rfl⟩

/-- Each step keeps an account, extended by the call made or the result received. -/
theorem Accounted.step {s t : FanOut β} (h : Step answer groups.length s t)
    {log : List ((β × List UtilDigest) × FindMissingResults)} {received : List FindMissingResults}
    (ha : Accounted answer groups s log received) :
    ∃ log' received', Accounted answer groups t log' received' := by
  cases h with
  | call pre post backend digests results hc hans =>
    refine ⟨log ++ [((backend, digests), results)], received, ⟨?_, ?_, ?_, ha.length_received,
      ha.recombined⟩⟩
    · have hcalls := ha.calls
      rw [hc] at hcalls
      simpa using (List.perm_middle.append_left _).symm.trans hcalls
    · exact List.forall_mem_append.mpr ⟨ha.answered, List.forall_mem_singleton.mpr hans⟩
    · have hres := ha.results
      simpa using List.perm_middle.trans ((List.perm_cons results).mpr hres |>.trans
        (List.perm_append_singleton _ _).symm)
  | send pre post results hs _ =>
    refine ⟨log, received, ⟨ha.calls, ha.answered, .trans ?_ ha.results, ha.length_received,
      ha.recombined⟩⟩
    have h : results :: (pre ++ post) ~ pre ++ results :: post := List.perm_middle.symm
    simpa [hs] using (h.append_left s.resultsChan).append_left received
  | receive results rest hr _ =>
    refine ⟨log, received ++ [results], ⟨ha.calls, ha.answered, ?_, ?_, ?_⟩⟩
    · simpa [hr] using ha.results
    · simp [ha.length_received]
    · rw [recombineAll_append_singleton, ← ha.recombined]

theorem Reachable.accounted {s : FanOut β} (h : Reachable answer groups s) :
    ∃ log received, Accounted answer groups s log received := by
  induction h with
  | start => exact ⟨[], [], accounted_start⟩
  | step _ hstep ih =>
    obtain ⟨log, received, ha⟩ := ih
    exact ha.step hstep

theorem Accounted.count {s : FanOut β} {log : List ((β × List UtilDigest) × FindMissingResults)}
    {received : List FindMissingResults} (ha : Accounted answer groups s log received) :
    s.i + s.resultsChan.length + s.sending.length + s.calling.length = groups.length := by
  have h₁ := ha.calls.length_eq
  have h₂ := ha.results.length_eq
  have h₃ := ha.length_received
  simp only [List.length_append, List.length_map] at h₁ h₂
  omega

/-- While the loop has not received every result, some party can move: no deadlock. -/
theorem Accounted.progress (htotal : ∀ b digests, ∃ results, answer b digests results)
    {s : FanOut β} {log : List ((β × List UtilDigest) × FindMissingResults)}
    {received : List FindMissingResults} (ha : Accounted answer groups s log received)
    (hi : s.i < groups.length) : ∃ t, Step answer groups.length s t := by
  have hcount := ha.count
  match hc : s.calling, hs : s.sending, hr : s.resultsChan with
  | (backend, digests) :: post, _, _ =>
    obtain ⟨results, hans⟩ := htotal backend digests
    exact ⟨_, .call s [] post backend digests results hc hans⟩
  | [], results :: post, _ =>
    exact ⟨_, .send s [] post results hs (by simp [hs, hc] at hcount; omega)⟩
  | [], [], results :: rest => exact ⟨_, .receive s results rest hr hi⟩
  | [], [], [] => simp [hc, hs, hr] at hcount; omega

def measure (s : FanOut β) : Nat :=
  3 * s.calling.length + 2 * s.sending.length + s.resultsChan.length

theorem Step.measure_succ {n : Nat} {s t : FanOut β} (h : Step answer n s t) :
    measure t + 1 = measure s := by
  cases h with
  | call pre post _ _ _ hc _ => simp [measure, hc]; omega
  | send pre post _ hs _ => simp [measure, hs]; omega
  | receive _ rest hr _ => simp [measure, hr]; omega

theorem not_infinite_run {n : Nat} (run : Nat → FanOut β)
    (hrun : ∀ k, Step answer n (run k) (run (k + 1))) : False := by
  have key : ∀ k, measure (run k) + k = measure (run 0) := by
    intro k
    induction k with
    | zero => rfl
    | succ k ih => have := (hrun k).measure_succ; omega
  have := key (measure (run 0) + 1)
  omega

/-- When the loop has received one result per group, every goroutine has called its backend and
sent its result, and the loop holds the join of the answers: the missing lists of the successful
calls, and the error of one failed call when there is one. -/
theorem Accounted.returned {s : FanOut β} {log : List ((β × List UtilDigest) × FindMissingResults)}
    {received : List FindMissingResults} (ha : Accounted answer groups s log received)
    (hi : s.i = groups.length) :
    s.calling = [] ∧ s.sending = [] ∧ s.resultsChan = [] ∧
      log.map Prod.fst ~ groups ∧ (∀ x ∈ log, answer x.1.1 x.1.2 x.2) ∧
      s.missingDigests ~ ((log.map Prod.snd).filter (·.err = none)).flatMap (·.missing) ∧
      (s.err = none ↔ ∀ x ∈ log, x.2.err = none) ∧
      (∀ e, s.err = some e → ∃ x ∈ log, x.2.err = some e) := by
  have hcount := ha.count
  have hc : s.calling = [] := List.eq_nil_of_length_eq_zero (by omega)
  have hs : s.sending = [] := List.eq_nil_of_length_eq_zero (by omega)
  have hr : s.resultsChan = [] := List.eq_nil_of_length_eq_zero (by omega)
  have hcalls := ha.calls
  have hres := ha.results
  have hrec := ha.recombined
  rw [hc, List.append_nil] at hcalls
  rw [hs, hr, List.append_nil, List.append_nil] at hres
  rw [recombineAll_eq, Prod.mk.injEq] at hrec
  refine ⟨hc, hs, hr, hcalls, ha.answered, ?_, ?_, ?_⟩
  · rw [hrec.1]
    exact (hres.filter _).flatMap_right _
  · rw [hrec.2, List.getLast?_eq_none_iff, List.filterMap_eq_nil_iff]
    simp only [hres.mem_iff, List.forall_mem_map]
  · intro e he
    rw [hrec.2] at he
    obtain ⟨r, hr, hre⟩ := List.mem_filterMap.mp (List.mem_of_getLast?_eq_some he)
    obtain ⟨x, hx, rfl⟩ := List.mem_map.mp (hres.mem_iff.mp hr)
    exact ⟨x, hx, hre⟩

end Invariant

end FanOut

/-- `FindMissing` up to its goroutines: the grouping loop, then one goroutine per group. -/
def startFindMissing [DecidableEq β] (ba : ShardingBlobAccess β) (digests : List UtilDigest) :
    Outcome (FanOut β) :=
  match digestsPerBackend ba [] digests with
  | .returns perBackend =>
    match spawn perBackend with
    | .returns groups => .returns (FanOut.start groups)
    | .aborts reason => .aborts reason
  | .aborts reason => .aborts reason

theorem forward_of_getBackend {α : Type} {ba : ShardingBlobAccess β} {digest : UtilDigest}
    {backend : β} (h : getBackend ba digest = .returns (some backend)) (call : β → α) :
    forward ba call digest = .returns (call backend) := by
  simp [forward, h]

theorem eq_map_some_of_ne_none :
    ∀ {keys : List (Option β)}, (∀ k ∈ keys, k ≠ none) → ∃ backends : List β, keys = backends.map some
  | [], _ => ⟨[], rfl⟩
  | k :: keys, h => by
    obtain ⟨b, rfl⟩ := Option.ne_none_iff_exists'.mp (h k (List.mem_cons_self k keys))
    obtain ⟨bs, rfl⟩ := eq_map_some_of_ne_none fun k' hk' => h k' (List.mem_cons_of_mem _ hk')
    exact ⟨b :: bs, rfl⟩

/-- When `getBackend` routes every digest to a live backend, `FindMissing` starts one goroutine
per backend met, with the sub-list of the digests routed to it. -/
theorem startFindMissing_groups [DecidableEq β] (ba : ShardingBlobAccess β)
    (digests : List UtilDigest) (route : UtilDigest → β)
    (hroute : ∀ d ∈ digests, getBackend ba d = .returns (some (route d))) :
    ∃ groups : List (β × List UtilDigest),
      startFindMissing ba digests = .returns (FanOut.start groups) ∧
      (groups.map Prod.fst).Nodup ∧ (∀ b, b ∈ groups.map Prod.fst ↔ ∃ d ∈ digests, route d = b) ∧
      ∀ g ∈ groups, g.2 = digests.filter (route · = g.1) := by
  obtain ⟨keys, h, hnodup, hkeys⟩ :=
    digestsPerBackend_entries ba (fun d => some (route d)) digests [] [] hroute List.nodup_nil
      (by simp)
  obtain ⟨bs, rfl⟩ := eq_map_some_of_ne_none fun k hk => by
    obtain ⟨d, -, rfl⟩ := (hkeys k).mp hk
    exact Option.some_ne_none _
  have hentries : (bs.map some).map (entry (fun d => some (route d)) ([] ++ digests)) =
      (bs.map fun b => (b, digests.filter (route · = b))).map fun g => (some g.1, g.2) := by
    simp [entry, Function.comp_def]
  refine ⟨bs.map fun b => (b, digests.filter (route · = b)), ?_, ?_, fun b => ?_, ?_⟩
  · simp only [List.map_nil] at h
    simp only [startFindMissing, h, hentries, spawn_map_some]
  · simpa [Function.comp_def] using hnodup.of_map some
  · simpa [Function.comp_def] using hkeys (some b)
  · intro g hg
    obtain ⟨b, -, rfl⟩ := List.mem_map.mp hg
    rfl

theorem shardingBlobAccess_findMissing [DecidableEq β] (ba : ShardingBlobAccess β)
    (digests : List UtilDigest) (route : UtilDigest → β)
    (hroute : ∀ d ∈ digests, getBackend ba d = .returns (some (route d)))
    (answer : β → List UtilDigest → FindMissingResults → Prop)
    (htotal : ∀ b ds, ∃ results, answer b ds results) :
    ∃ groups : List (β × List UtilDigest),
      startFindMissing ba digests = .returns (FanOut.start groups) ∧
      (groups.map Prod.fst).Nodup ∧ (∀ b, b ∈ groups.map Prod.fst ↔ ∃ d ∈ digests, route d = b) ∧
      (∀ g ∈ groups, g.2 = digests.filter (route · = g.1) ∧
        ∀ d ∈ g.2, ∀ (α : Type) (call : β → α), forward ba call d = .returns (call g.1)) ∧
      (∀ s, FanOut.Reachable answer groups s → s.i < groups.length →
        ∃ t, FanOut.Step answer groups.length s t) ∧
      (∀ run : Nat → FanOut β, ¬ ∀ k, FanOut.Step answer groups.length (run k) (run (k + 1))) ∧
      ∀ s, FanOut.Reachable answer groups s → s.i = groups.length →
        s.calling = [] ∧ s.sending = [] ∧ s.resultsChan = [] ∧
        ∃ log : List ((β × List UtilDigest) × FindMissingResults),
          log.map Prod.fst ~ groups ∧ (∀ x ∈ log, answer x.1.1 x.1.2 x.2) ∧
          s.missingDigests ~ ((log.map Prod.snd).filter (·.err = none)).flatMap (·.missing) ∧
          (s.err = none ↔ ∀ x ∈ log, x.2.err = none) ∧
          ∀ e, s.err = some e → ∃ x ∈ log, x.2.err = some e := by
  obtain ⟨groups, hstart, hnodup, hkeys, hfilter⟩ := startFindMissing_groups ba digests route hroute
  refine ⟨groups, hstart, hnodup, hkeys, fun g hg => ⟨hfilter g hg, fun d hd α call => ?_⟩,
    fun s hs hi => ?_, fun run hrun => FanOut.not_infinite_run run hrun, fun s hs hi => ?_⟩
  · rw [hfilter g hg, List.mem_filter, decide_eq_true_iff] at hd
    exact forward_of_getBackend (by rw [hroute d hd.1, hd.2]) call
  · obtain ⟨log, received, ha⟩ := hs.accounted
    exact ha.progress htotal hi
  · obtain ⟨log, received, ha⟩ := hs.accounted
    obtain ⟨hc, hsending, hr, hrest⟩ := ha.returned hi
    exact ⟨hc, hsending, hr, log, hrest⟩

theorem FanOut.results_perm_of_function (callFindMissing : β → List UtilDigest → FindMissingResults)
    {groups : List (β × List UtilDigest)} {log : List ((β × List UtilDigest) × FindMissingResults)}
    (hcalls : log.map Prod.fst ~ groups) (hans : ∀ x ∈ log, x.2 = callFindMissing x.1.1 x.1.2) :
    log.map Prod.snd ~ groups.map fun g => callFindMissing g.1 g.2 := by
  have : log.map Prod.snd = (log.map Prod.fst).map fun g => callFindMissing g.1 g.2 := by
    rw [List.map_map]
    exact List.map_congr_left hans
  rw [this]
  exact hcalls.map _

theorem shardingBlobAccess_findMissing_two_backends :
    let ba : ShardingBlobAccess Nat :=
      ⟨[some 0, some 1], ⟨fun h => [(h % 2).toNat]⟩, .withoutInstance, 0⟩
    let d₁ : UtilDigest := ⟨"", [0xab], 1, by decide⟩
    let d₂ : UtilDigest := ⟨"", [0xac], 1, by decide⟩
    let route : UtilDigest → Nat := fun d => (hashKey 0 (d.getKey .withoutInstance) % 2).toNat
    (∀ d ∈ [d₁, d₂, d₁], getBackend ba d = .returns (some (route d))) ∧
      startFindMissing ba [d₁, d₂, d₁] = .returns (FanOut.start [(0, [d₁, d₁]), (1, [d₂])]) ∧
      ∀ s, FanOut.Reachable (fun _ ds results => results = ⟨ds, none⟩)
          [(0, [d₁, d₁]), (1, [d₂])] s → s.i = 2 →
        s.missingDigests ~ [d₁, d₁, d₂] ∧ s.err = none := by
  intro ba d₁ d₂ route
  have hroute : ∀ d ∈ [d₁, d₂, d₁], getBackend ba d = .returns (some (route d)) := by decide
  have hgroups : startFindMissing ba [d₁, d₂, d₁] =
      .returns (FanOut.start [(0, [d₁, d₁]), (1, [d₂])]) := by decide
  obtain ⟨groups, hstart, -, -, -, -, -, hdone⟩ :=
    shardingBlobAccess_findMissing ba [d₁, d₂, d₁] route hroute
      (fun _ ds results => results = ⟨ds, none⟩) (fun _ ds => ⟨_, rfl⟩)
  obtain rfl : groups = [(0, [d₁, d₁]), (1, [d₂])] := by
    rw [hgroups] at hstart
    cases hstart
    rfl
  refine ⟨hroute, hgroups, fun s hs hi => ?_⟩
  obtain ⟨-, -, -, log, hcalls, hans, hmiss, hnone, -⟩ := hdone s hs hi
  have hlog := FanOut.results_perm_of_function (fun _ ds => ⟨ds, none⟩) hcalls hans
  exact ⟨hmiss.trans ((hlog.filter _).flatMap_right _), hnone.mpr fun x hx => by rw [hans x hx]⟩

/-- With backends that answer as functions of the digests they are asked about, every interleaving
returns the same multiset of missing digests, and fails exactly when some backend fails. -/
theorem FanOut.returned_of_function (callFindMissing : β → List UtilDigest → FindMissingResults)
    {groups : List (β × List UtilDigest)} {s : FanOut β}
    (hs : FanOut.Reachable (fun b ds results => results = callFindMissing b ds) groups s)
    (hi : s.i = groups.length) :
    s.missingDigests ~
        (((groups.map fun g => callFindMissing g.1 g.2)).filter (·.err = none)).flatMap (·.missing) ∧
      (s.err = none ↔ ∀ g ∈ groups, (callFindMissing g.1 g.2).err = none) := by
  obtain ⟨log, received, ha⟩ := hs.accounted
  obtain ⟨-, -, -, hcalls, hans, hmiss, hnone, -⟩ := ha.returned hi
  have hlog := FanOut.results_perm_of_function callFindMissing hcalls hans
  refine ⟨hmiss.trans ((hlog.filter _).flatMap_right _), hnone.trans ⟨fun h g hg => ?_, fun h x hx => ?_⟩⟩
  · obtain ⟨x, hx, rfl⟩ := List.mem_map.mp (hcalls.mem_iff.mpr hg)
    rw [← hans x hx]
    exact h x hx
  · rw [hans x hx]
    exact h x.1 (hcalls.mem_iff.mp (List.mem_map_of_mem _ hx))

/-- The second group's goroutine calls, sends and is received before the first one calls. -/
theorem FanOut.returned_of_function_two_groups :
    let d₁ : UtilDigest := ⟨"", [0xab], 1, by decide⟩
    let d₂ : UtilDigest := ⟨"", [0xac], 1, by decide⟩
    let s : FanOut Nat := ⟨[], [], [], 2, [d₂, d₁], none⟩
    FanOut.Reachable (fun _ ds results => results = ⟨ds, none⟩) [(0, [d₁]), (1, [d₂])] s ∧
      s.i = [(0, [d₁]), (1, [d₂])].length ∧ s.missingDigests ~ [d₁, d₂] ∧ s.err = none := by
  intro d₁ d₂ s
  let answer : Nat → List UtilDigest → FindMissingResults → Prop :=
    fun _ ds results => results = ⟨ds, none⟩
  let r₁ : FindMissingResults := ⟨[d₁], none⟩
  let r₂ : FindMissingResults := ⟨[d₂], none⟩
  have h₁ : FanOut.Step answer 2 (FanOut.start [(0, [d₁]), (1, [d₂])])
      ⟨[(0, [d₁])], [r₂], [], 0, [], none⟩ := .call _ [(0, [d₁])] [] 1 [d₂] r₂ rfl rfl
  have h₂ : FanOut.Step answer 2 ⟨[(0, [d₁])], [r₂], [], 0, [], none⟩
      ⟨[(0, [d₁])], [], [r₂], 0, [], none⟩ := .send _ [] [] r₂ rfl (by decide)
  have h₃ : FanOut.Step answer 2 ⟨[(0, [d₁])], [], [r₂], 0, [], none⟩
      ⟨[(0, [d₁])], [], [], 1, [d₂], none⟩ := .receive _ r₂ [] rfl (by decide)
  have h₄ : FanOut.Step answer 2 ⟨[(0, [d₁])], [], [], 1, [d₂], none⟩
      ⟨[], [r₁], [], 1, [d₂], none⟩ := .call _ [] [] 0 [d₁] r₁ rfl rfl
  have h₅ : FanOut.Step answer 2 ⟨[], [r₁], [], 1, [d₂], none⟩ ⟨[], [], [r₁], 1, [d₂], none⟩ :=
    .send _ [] [] r₁ rfl (by decide)
  have h₆ : FanOut.Step answer 2 ⟨[], [], [r₁], 1, [d₂], none⟩ s := .receive _ r₁ [] rfl (by decide)
  have hs : FanOut.Reachable answer [(0, [d₁]), (1, [d₂])] s :=
    .step (.step (.step (.step (.step (.step .start h₁) h₂) h₃) h₄) h₅) h₆
  have h := FanOut.returned_of_function (fun _ ds => ⟨ds, none⟩) hs rfl
  exact ⟨hs, rfl, h.1, h.2.mpr (by simp)⟩

/-- Only the backend a digest is routed to can report it missing: with backends that report missing
only digests they were asked about and do not hold, no state of any interleaving of `FindMissing`
holds a digest that its own backend holds, such as one `Put` stored there. -/
theorem shardingBlobAccess_findMissing_held [DecidableEq β] (ba : ShardingBlobAccess β)
    (digests : List UtilDigest) (route : UtilDigest → β)
    (hroute : ∀ d ∈ digests, getBackend ba d = .returns (some (route d)))
    (holds : β → UtilDigest → Prop) (answer : β → List UtilDigest → FindMissingResults → Prop)
    (hsound : ∀ b ds results, answer b ds results → ∀ d ∈ results.missing, d ∈ ds ∧ ¬holds b d) :
    ∃ groups : List (β × List UtilDigest),
      startFindMissing ba digests = .returns (FanOut.start groups) ∧
      ∀ s, FanOut.Reachable answer groups s →
        ∀ d ∈ s.missingDigests, d ∈ digests ∧ ¬holds (route d) d := by
  obtain ⟨groups, hstart, -, -, hfilter⟩ := startFindMissing_groups ba digests route hroute
  refine ⟨groups, hstart, fun s hs d hd => ?_⟩
  obtain ⟨log, received, ha⟩ := hs.accounted
  have hrec := ha.recombined
  rw [recombineAll_eq, Prod.mk.injEq] at hrec
  obtain ⟨r, hr, hdr⟩ := List.mem_flatMap.mp (hrec.1 ▸ hd)
  obtain ⟨x, hx, rfl⟩ := List.mem_map.mp (ha.results.subset
    (List.mem_append_left _ (List.mem_append_left _ (List.mem_of_mem_filter hr))))
  have hg : x.1 ∈ groups := ha.calls.subset (List.mem_append_left _ (List.mem_map_of_mem _ hx))
  obtain ⟨hdx, hheld⟩ := hsound _ _ _ (ha.answered x hx) d hdr
  rw [hfilter x.1 hg, List.mem_filter, decide_eq_true_iff] at hdx
  exact ⟨hdx.1, hdx.2 ▸ hheld⟩

theorem shardingBlobAccess_findMissing_held_two_backends :
    let ba : ShardingBlobAccess Nat :=
      ⟨[some 0, some 1], ⟨fun h => [(h % 2).toNat]⟩, .withoutInstance, 0⟩
    let d₁ : UtilDigest := ⟨"", [0xab], 1, by decide⟩
    let d₂ : UtilDigest := ⟨"", [0xac], 1, by decide⟩
    let route : UtilDigest → Nat := fun d => (hashKey 0 (d.getKey .withoutInstance) % 2).toNat
    let answer : Nat → List UtilDigest → FindMissingResults → Prop :=
      fun b ds results => results = ⟨ds.filter fun d => !(b = 0 ∧ d = d₁), none⟩
    (∀ d ∈ [d₁, d₂], getBackend ba d = .returns (some (route d))) ∧
      (∀ b ds results, answer b ds results → ∀ d ∈ results.missing, d ∈ ds ∧ ¬(b = 0 ∧ d = d₁)) ∧
      ∃ groups : List (Nat × List UtilDigest),
        startFindMissing ba [d₁, d₂] = .returns (FanOut.start groups) ∧
        ∀ s, FanOut.Reachable answer groups s →
          ∀ d ∈ s.missingDigests, d ∈ [d₁, d₂] ∧ ¬(route d = 0 ∧ d = d₁) := by
  intro ba d₁ d₂ route answer
  have hroute : ∀ d ∈ [d₁, d₂], getBackend ba d = .returns (some (route d)) := by decide
  have hsound : ∀ b ds results, answer b ds results →
      ∀ d ∈ results.missing, d ∈ ds ∧ ¬(b = 0 ∧ d = d₁) := by
    rintro b ds results rfl d hd
    obtain ⟨hds, hheld⟩ := List.mem_filter.mp hd
    exact ⟨hds, by simpa only [Bool.not_eq_true', decide_eq_false_iff_not] using hheld⟩
  exact ⟨hroute, hsound, shardingBlobAccess_findMissing_held ba [d₁, d₂] route hroute
    (fun b d => b = 0 ∧ d = d₁) answer hsound⟩

end Buildbarn.Blobstore.Sharding
