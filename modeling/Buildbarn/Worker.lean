import Buildbarn.Blobstore.Digest

/-! The worker's loop `subscribeAndExecute`. It opens the scheduler's `GetWork` stream and, for each
request it receives, logs the action's page in the browser, runs the build executor and sends back
the executor's response. The responses it sends answer the requests it received, one each and in
order, and it returns the first error that `Recv`, the parsing of the page's URL or `Send` meets. -/

namespace Buildbarn.Worker
open Blobstore

/-- An `ExecuteRequest`, with the fields `subscribeAndExecute` reads; its action digest is never nil
here. -/
structure ExecuteRequest where
  instanceName : String
  actionDigest : Digest
  deriving DecidableEq, Repr

/-- The path of the action's page in the browser, `"/action/%s/%s/%d/"`. -/
def actionPath (request : ExecuteRequest) : String :=
  "/action/" ++ request.instanceName ++ "/" ++ request.actionDigest.hash ++ "/" ++
    formatInt request.actionDigest.sizeBytes ++ "/"

/-- The worker's end of a `GetWork` stream, with states `σ`: `Recv`, and `Send` of a response. -/
structure GetWorkClient (σ ρ : Type) where
  recv : σ → Except Error (ExecuteRequest × σ)
  send : σ → ρ → Except Error σ

variable {σ ρ υ : Type} (client : GetWorkClient σ ρ) (parse : String → Except Error υ)
  (execute : ExecuteRequest → ρ)

/-- The `for` loop of `subscribeAndExecute` from the stream state `s`; `parse` is
`browserURL.Parse` and `execute` gives the build executor's response, whose error the loop drops.
The error the loop returns and the responses it sent, in order; `none` when it has not returned
within `fuel` requests. -/
def loop : Nat → σ → Option (Error × List ρ)
  | 0, _ => none
  | fuel + 1, s =>
    match client.recv s with
    | .error err => some (err, [])
    | .ok (request, s) =>
      match parse (actionPath request) with
      | .error err => some (err, [])
      | .ok _ =>
        match client.send s (execute request) with
        | .error err => some (err, [])
        | .ok s => (loop fuel s).map fun (err, sent) => (err, execute request :: sent)

/-- `subscribeAndExecute`, given what `GetWork` returned. -/
def subscribeAndExecute (getWork : Except Error σ) (fuel : Nat) : Option (Error × List ρ) :=
  match getWork with
  | .error err => some (err, [])
  | .ok s => loop client parse execute fuel s

/-! ### The loop as a trace -/

/-- From stream state `s` the loop receives the requests `qs`, each with a page URL that parses,
and sends each one's response, reaching state `t`. -/
inductive Serves : σ → List ExecuteRequest → σ → Prop
  | nil (s : σ) : Serves s [] s
  | cons {s s₁ s₂ t : σ} {q : ExecuteRequest} {qs : List ExecuteRequest} {u : υ} :
      client.recv s = .ok (q, s₁) → parse (actionPath q) = .ok u →
      client.send s₁ (execute q) = .ok s₂ → Serves s₂ qs t → Serves s (q :: qs) t

/-- One more round of the loop from state `t` fails with `err`: in `Recv`, in the parsing of the
page's URL, or in `Send`. -/
def Stops (t : σ) (err : Error) : Prop :=
  client.recv t = .error err ∨ ∃ q t₁, client.recv t = .ok (q, t₁) ∧
    (parse (actionPath q) = .error err ∨
      ∃ u, parse (actionPath q) = .ok u ∧ client.send t₁ (execute q) = .error err)

theorem loop_of_stops {t : σ} {err : Error} (h : Stops client parse execute t err) (fuel : Nat) :
    loop client parse execute (fuel + 1) t = some (err, []) := by
  rcases h with h | ⟨q, t₁, hr, h | ⟨u, hu, hs⟩⟩ <;> simp [loop, *]

theorem stops_of_loop {t : σ} {err : Error} {sent : List ρ} {fuel : Nat}
    (h : loop client parse execute (fuel + 1) t = some (err, sent)) :
    Stops client parse execute t err ∧ sent = [] ∨
      ∃ q t₁ u t₂ sent', client.recv t = .ok (q, t₁) ∧ parse (actionPath q) = .ok u ∧
        client.send t₁ (execute q) = .ok t₂ ∧ loop client parse execute fuel t₂ = some (err, sent') ∧
        sent = execute q :: sent' := by
  simp only [loop] at h
  rcases hr : client.recv t with e | ⟨q, t₁⟩
  · simp only [hr, Option.some.injEq, Prod.mk.injEq] at h
    exact .inl ⟨.inl (h.1 ▸ hr), h.2.symm⟩
  rcases hu : parse (actionPath q) with e | u
  · simp only [hr, hu, Option.some.injEq, Prod.mk.injEq] at h
    exact .inl ⟨.inr ⟨q, t₁, hr, .inl (h.1 ▸ hu)⟩, h.2.symm⟩
  rcases hs : client.send t₁ (execute q) with e | t₂
  · simp only [hr, hu, hs, Option.some.injEq, Prod.mk.injEq] at h
    exact .inl ⟨.inr ⟨q, t₁, hr, .inr ⟨u, hu, h.1 ▸ hs⟩⟩, h.2.symm⟩
  simp only [hr, hu, hs] at h
  obtain ⟨⟨err', sent'⟩, hl, heq⟩ := Option.map_eq_some'.mp h
  cases heq
  exact .inr ⟨q, t₁, u, t₂, sent', rfl, hu, hs, hl, rfl⟩

/-- The loop returns `err` having sent `sent` exactly when, within its fuel, it serves some requests
whose responses are `sent`, in order, and the next round fails with `err`. -/
theorem loop_eq_some_iff {fuel : Nat} {s : σ} {err : Error} {sent : List ρ} :
    loop client parse execute fuel s = some (err, sent) ↔
      ∃ qs t, qs.length < fuel ∧ Serves client parse execute s qs t ∧ sent = qs.map execute ∧
        Stops client parse execute t err := by
  induction fuel generalizing s sent with
  | zero => simp [loop]
  | succ fuel ih =>
    constructor
    · intro h
      rcases stops_of_loop client parse execute h with ⟨hstop, rfl⟩ |
        ⟨q, t₁, u, t₂, sent', hr, hu, hs, hl, rfl⟩
      · exact ⟨[], s, Nat.succ_pos _, .nil s, rfl, hstop⟩
      · obtain ⟨qs, t, hlen, hserve, rfl, hstop⟩ := ih.mp hl
        exact ⟨q :: qs, t, Nat.succ_lt_succ hlen, .cons hr hu hs hserve, rfl, hstop⟩
    · rintro ⟨qs, t, hlen, hserve, rfl, hstop⟩
      cases hserve with
      | nil => exact loop_of_stops client parse execute hstop fuel
      | cons hr hu hs hserve =>
        have hl := ih.mpr ⟨_, t, Nat.lt_of_succ_lt_succ hlen, hserve, rfl, hstop⟩
        simp only [loop, hr, hu, hs, hl, Option.map_some', List.map_cons]

end Worker

open Worker in
/-- `subscribeAndExecute` returns `err` having sent `sent` exactly when `GetWork` failed with `err`
and nothing was sent, or, within its fuel, the worker received requests whose page URLs parse and
sent one response to each, the executor's response to it, in the order received, until the next
round failed with `err` in `Recv`, in the parsing of the page's URL or in `Send`. -/
theorem subscribeAndExecute_serves {σ ρ υ : Type} (client : GetWorkClient σ ρ)
    (parse : String → Except Error υ) (execute : ExecuteRequest → ρ) (getWork : Except Error σ)
    (fuel : Nat) (err : Error) (sent : List ρ) :
    subscribeAndExecute client parse execute getWork fuel = some (err, sent) ↔
      getWork = .error err ∧ sent = [] ∨
        ∃ s qs t, getWork = .ok s ∧ qs.length < fuel ∧ Serves client parse execute s qs t ∧
          sent = qs.map execute ∧ Stops client parse execute t err := by
  cases getWork with
  | error e => simp [subscribeAndExecute, eq_comm]
  | ok s => simp [subscribeAndExecute, loop_eq_some_iff]

end Buildbarn
